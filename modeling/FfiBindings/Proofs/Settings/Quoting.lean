import FfiBindings.Proofs.Settings.Separation
import FfiBindings.Proofs.Work
import FfiBindings.Proofs.Words

set_option autoImplicit false

namespace FfiBindings

namespace Text

def IsNumeral (c : Char) : Prop := c = '-' ∨ 48 ≤ c.toNat ∧ c.toNat ≤ 57

theorem isDigit_of_mem_repr {value : Nat} {c : Char} (member : c ∈ value.repr.toList) :
    c.isDigit = true := by
  rw [Nat.toList_repr] at member
  exact Nat.isDigit_of_mem_toDigits (by decide) (by decide) member

theorem isNumeral_of_mem_toString (number : Int) : ∀ c ∈ (toString number).toList, IsNumeral c := by
  have digits : ∀ (value : Nat), ∀ c ∈ value.repr.toList, IsNumeral c := by
    intro value c member
    have digit := isDigit_of_mem_repr member
    simp only [Char.isDigit, Bool.and_eq_true, decide_eq_true_eq] at digit
    exact .inr digit
  intro c member
  rw [Int.toString_eq_repr, Int.repr_eq_if] at member
  split at member
  · exact digits _ c member
  · rw [String.toList_append] at member
    rcases List.mem_append.mp member with sign | rest
    · exact .inl (by simpa using sign)
    · exact digits _ c rest

theorem toString_eq_repr_iff {number : Int} {value : Nat} :
    toString number = value.repr ↔ number = value := by
  rw [Int.toString_eq_repr, Int.repr_eq_if]
  split
  · next positive =>
    have same : number.toNat.repr = value.repr ↔ number.toNat = value := by
      -- Digits are read back.
      refine ⟨fun written => ?_, fun equal => by rw [equal]⟩
      have digits := congrArg String.toList written
      rw [Nat.toList_repr, Nat.toList_repr] at digits
      have read := congrArg (Nat.ofDigitChars 10 · 0) digits
      simpa [Nat.ofDigitChars_toDigits] using read
    rw [same]
    omega
  · next negative =>
    refine ⟨fun written => ?_, fun equal => absurd (by omega) negative⟩
    have sign : '-' ∈ value.repr.toList := by
      rw [← written, String.toList_append]
      exact List.mem_append_left _ (by decide)
    exact absurd (isDigit_of_mem_repr sign) (by decide)

theorem IsNumeral.not_isBlank {c : Char} (numeral : IsNumeral c) : isBlank c = false := by
  rcases numeral with rfl | ⟨least, greatest⟩
  · decide
  · simp only [isBlank, Bool.or_eq_false_iff, Bool.and_eq_false_iff, decide_eq_false_iff_not,
      beq_eq_false_iff_ne]
    omega

theorem IsNumeral.lowerChar {c : Char} (numeral : IsNumeral c) : lowerChar c = [c] := by
  rcases numeral with rfl | ⟨least, greatest⟩
  · decide
  · have small : c.toNat < 0x80 := by omega
    have noCapital : ¬(c.val ≥ 'A'.val ∧ c.val ≤ 'Z'.val) := by
      rintro ⟨above, -⟩
      have above : 65 ≤ c.toNat := above
      omega
    have same : c.toLower = c := dif_neg noCapital
    rw [Text.lowerChar, if_pos small, same]

theorem lowerFrom_numeral (before : Bool) (text : List Char) (numeral : ∀ c ∈ text, IsNumeral c) :
    lowerFrom before text = text := by
  induction text generalizing before with
  | nil => rfl
  | cons c rest ih =>
    obtain ⟨first, others⟩ := List.forall_mem_cons.mp numeral
    have other : c ≠ 'Σ' := by
      rintro rfl
      rcases first with sign | ⟨-, least⟩
      · exact absurd sign (by decide)
      · exact absurd least (by decide)
    simp [lowerFrom, other, first.lowerChar, ih _ others]

theorem lower_trim_numeral (number : Int) :
    lower (trim (toString number)) = toString number := by
  have numeral := isNumeral_of_mem_toString number
  have trimmed : Trimmed (toString number).toList := {
    front := fun c head => (numeral c (List.mem_of_mem_head? head)).not_isBlank
    back := fun c head =>
      (numeral c (List.mem_reverse.mp (List.mem_of_mem_head? head))).not_isBlank }
  rw [trim, trimChars_of_trimmed trimmed, String.ofList_toList, lower,
    lowerFrom_numeral false _ numeral, String.ofList_toList]

end Text

namespace Value

def quotedIf (quotes : Bool) : Value → Value
  | .int number => if quotes then .text (toString number) else .int number
  | value => value

def changeEntries (change : Value → Value → Value) (entries : Entries) : Entries :=
  entries.map fun entry => (entry.1, change entry.1 entry.2)

def changeDict (change : Value → Value → Value) : Value → Value
  | .dict entries => .dict (changeEntries change entries)
  | value => value

-- In the place of a list, quote a value that stands alone, or some items of a list.
def quoteList (alone : Bool) (items : Nat → Bool) : Value → Value
  | .list values => .list (values.mapIdx fun index => quotedIf (items index))
  | value => quotedIf alone value

def alone? : Value → Option (List String)
  | .int number => some [toString number]
  | _ => none

def isZero : Value → Bool
  | .int number => number == 0
  | _ => false

theorem sameKey_text_iff (name : String) (key : Value) :
    sameKey (.text name) key = true ↔ key = .text name := by
  cases key with
  | text other =>
    simp only [sameKey, beq_iff_eq, Value.text.injEq]
    exact eq_comm
  | _ => exact ⟨nofun, nofun⟩

theorem changeEntries_cons (change : Value → Value → Value) (key value : Value) (rest : Entries) :
    changeEntries change ((key, value) :: rest) =
      (key, change key value) :: changeEntries change rest := rfl

theorem get?_changeEntries (change : Value → Value → Value) (entries : Entries) (name : String) :
    get? (changeEntries change entries) name =
      (get? entries name).map (change (.text name)) := by
  simp only [get?, changeEntries, List.find?_map, Option.map_map, Function.comp_def]
  refine Option.map_congr fun entry found => ?_
  have named : sameKey (.text name) entry.1 = true := by
    simpa using List.find?_some found
  rw [(sameKey_text_iff name entry.1).mp named]

theorem text?_quotedIf (quotes : Bool) (value : Value) :
    (quotedIf quotes value).text? = value.text? := by
  cases value with
  | int number => cases quotes <;> rfl
  | _ => rfl

theorem shown_quotedIf (quotes : Bool) (value : Value) :
    (quotedIf quotes value).shown = value.shown := by
  cases value with
  | int number => cases quotes <;> rfl
  | _ => rfl

theorem entries_changeDict (change : Value → Value → Value) (value : Value) :
    (changeDict change value).entries = changeEntries change value.entries := by
  cases value <;> rfl

theorem truth?_numeral (number : Int) :
    truth? (.text (toString number)) =
      if number = 1 then some true else if number = 0 then some false else none := by
  have one : toString number = "1" ↔ number = 1 := @Text.toString_eq_repr_iff number 1
  have zero : toString number = "0" ↔ number = 0 := @Text.toString_eq_repr_iff number 0
  have letters : ["true", "yes", "false", "no"].all
      (fun word => word.toList.any fun c => 57 < c.toNat) = true := by
    decide
  have noLetter : ∀ word ∈ ["true", "yes", "false", "no"], toString number ≠ word := by
    intro word member written
    obtain ⟨c, inside, letter⟩ := List.any_eq_true.mp (List.all_eq_true.mp letters word member)
    rw [decide_eq_true_iff] at letter
    rcases Text.isNumeral_of_mem_toString number c (written ▸ inside) with rfl | ⟨-, small⟩
    · exact absurd letter (by decide)
    · omega
  simp only [List.forall_mem_cons] at noLetter
  obtain ⟨noTrue, noYes, noFalse, noNo, -⟩ := noLetter
  simp only [truth?, Text.lower_trim_numeral, List.contains_cons, List.contains_nil, Bool.or_false,
    Bool.or_eq_true, beq_iff_eq, noTrue, noYes, noFalse, noNo, one, zero, false_or]

-- Only a zero is read as another truth value than before; a one already switched nothing off.
theorem truth?_quotedIf (quotes : Bool) (value : Value) :
    (quotedIf quotes value).truth?.getD true =
      (value.truth?.getD true && !(quotes && value.isZero)) := by
  cases value with
  | int number =>
    cases quotes with
    | false => simp [quotedIf]
    | true =>
      -- A number says nothing, so the compiler is on; between quotes one agrees and zero does not.
      have unread : (Value.int number).truth? = none := rfl
      rw [quotedIf, if_pos rfl, truth?_numeral, unread, isZero]
      split
      · next one => simp [one]
      · split
        · next zero => simp [zero]
        · next other => simp [other]
  | _ => simp [quotedIf, isZero]

theorem texts_quoteList (alone : Bool) (items : Nat → Bool) (value : Value) :
    (quoteList alone items value).texts =
      if alone then value.alone?.getD value.texts else value.texts := by
  cases value with
  | list values =>
    have same : (values.mapIdx fun index => quotedIf (items index)).filterMap text? =
        values.filterMap text? := by
      -- Behind the first item all indices move, so the choice of items moves with the induction.
      induction values generalizing items with
      | nil => rfl
      | cons first rest ih =>
        rw [List.mapIdx_cons, List.filterMap_cons, List.filterMap_cons, text?_quotedIf,
          ih fun index => items (index + 1)]
    simp [quoteList, texts, alone?, same]
  | int number => cases alone <;> rfl
  | _ => cases alone <;> rfl

end Value

open Value

namespace TypeAliases

theorem addAll_quoted (quotes : Value → Bool) (entries : Value.Entries) (aliases : TypeAliases) :
    addAll aliases (changeEntries (fun token => quotedIf (quotes token)) entries) =
      addAll aliases entries := by
  induction entries generalizing aliases with
  | nil => rfl
  | cons entry rest ih =>
    obtain ⟨token, target⟩ := entry
    rw [changeEntries_cons, addAll, addAll, text?_quotedIf, shown_quotedIf]
    cases target.text?.bind FfiType.ofName? with
    | none => rfl
    | some type => exact ih _

theorem ofValue_quoted (quotes : Value → Bool) (value : Value) :
    ofValue (changeDict (fun token => quotedIf (quotes token)) value) = ofValue value := by
  rw [ofValue, entries_changeDict, addAll_quoted, ofValue]

end TypeAliases

namespace Settings

inductive Position where
  | layout (key : Value)
  | parser
  | enabled
  | command
  | arguments
  | argument (index : Nat)
  | target (token : Value)
  | excludePaths
  | excludePath (index : Nat)
  | templatesDir

def requoteCompiler (quotes : Position → Bool) : Value → Value → Value
  | .text "enabled" => quotedIf (quotes .enabled)
  | .text "command" => quotedIf (quotes .command)
  | .text "args" => quoteList (quotes .arguments) fun index => quotes (.argument index)
  | _ => id

def requoteTypes (quotes : Position → Bool) : Value → Value → Value
  | .text "aliases" => changeDict fun token => quotedIf (quotes (.target token))
  | _ => id

def requoteValue (quotes : Position → Bool) : Value → Value → Value
  | .text "layout" => changeDict fun key => quotedIf (quotes (.layout key))
  | .text "parser" => quotedIf (quotes .parser)
  | .text "compiler" => changeDict (requoteCompiler quotes)
  | .text "types" => changeDict (requoteTypes quotes)
  | .text "exclude_paths" =>
    quoteList (quotes .excludePaths) fun index => quotes (.excludePath index)
  | .text "templates_dir" => quotedIf (quotes .templatesDir)
  | _ => id

def requote (quotes : Position → Bool) (entries : Value.Entries) : Value.Entries :=
  changeEntries (requoteValue quotes) entries

def compilerWithQuotes (quotes : Position → Bool) (given : Value.Entries)
    (compiler : CompilerSettings) : CompilerSettings :=
  { compiler with
    enabled := compiler.enabled && !(quotes .enabled && (get? given "enabled").any isZero)
    arguments :=
      if quotes .arguments then
        ((get? given "args").bind alone?).getD compiler.arguments
      else
        compiler.arguments }

def withQuotes (quotes : Position → Bool) (entries : Value.Entries) (settings : Settings) :
    Settings :=
  { settings with
    compiler := compilerWithQuotes quotes (sectionOf entries "compiler") settings.compiler
    excludePaths :=
      if quotes .excludePaths then
        ((get? entries "exclude_paths").bind alone?).getD settings.excludePaths
      else
        settings.excludePaths }

theorem sectionOf_changeEntries {change inner : Value → Value → Value} {key : String}
    (inside : change (.text key) = changeDict inner) (entries : Value.Entries) :
    sectionOf (changeEntries change entries) key = changeEntries inner (sectionOf entries key) := by
  rw [sectionOf, get?_changeEntries, inside, sectionOf]
  cases get? entries key with
  | none => rfl
  | some value => exact entries_changeDict inner value

theorem givenText_changeEntries {change : Value → Value → Value} {key : String} {quotes : Bool}
    (quoted : change (.text key) = quotedIf quotes) (entries : Value.Entries) :
    givenText (changeEntries change entries) key = givenText entries key := by
  rw [givenText, get?_changeEntries, quoted, givenText, Option.bind_map]
  simp only [Function.comp_def, text?_quotedIf]

theorem texts_changeEntries {change : Value → Value → Value} {key : String} {alone : Bool}
    {items : Nat → Bool} (quoted : change (.text key) = quoteList alone items)
    (entries : Value.Entries) :
    ((get? (changeEntries change entries) key).map texts).getD [] =
      if alone then
        ((get? entries key).bind alone?).getD (((get? entries key).map texts).getD [])
      else
        ((get? entries key).map texts).getD [] := by
  rw [get?_changeEntries, quoted]
  cases get? entries key with
  | none => simp
  | some value => simp [texts_quoteList]

theorem layout_requote (quotes : Position → Bool) (entries : Value.Entries) :
    LayoutNames.ofEntries (sectionOf (requote quotes entries) "layout") =
      LayoutNames.ofEntries (sectionOf entries "layout") := by
  have named : ∀ key standard,
      LayoutNames.nameIn (changeEntries (fun key => quotedIf (quotes (.layout key)))
        (sectionOf entries "layout")) key standard =
      LayoutNames.nameIn (sectionOf entries "layout") key standard := by
    intro key standard
    rw [LayoutNames.nameIn, get?_changeEntries, LayoutNames.nameIn, Option.bind_map]
    simp only [Function.comp_def, text?_quotedIf]
  have inside : sectionOf (requote quotes entries) "layout" = _ :=
    sectionOf_changeEntries (by rfl) entries
  simp only [LayoutNames.ofEntries, inside, named]

theorem compiler_requote (quotes : Position → Bool) (given : Value.Entries) :
    CompilerSettings.ofEntries (changeEntries (requoteCompiler quotes) given) =
      (CompilerSettings.ofEntries given).map (compilerWithQuotes quotes given) := by
  have enabled : ((get? (changeEntries (requoteCompiler quotes) given) "enabled").bind
        truth?).getD true =
      (((get? given "enabled").bind truth?).getD true &&
        !(quotes .enabled && (get? given "enabled").any isZero)) := by
    rw [get?_changeEntries]
    cases get? given "enabled" with
    | none => simp
    | some value => exact truth?_quotedIf _ value
  have command : givenText (changeEntries (requoteCompiler quotes) given) "command" =
      givenText given "command" :=
    givenText_changeEntries (by rfl) given
  have arguments :=
    texts_changeEntries (show requoteCompiler quotes (.text "args") = _ by rfl) given
  have timeout : get? (changeEntries (requoteCompiler quotes) given) "timeout" =
      get? given "timeout" := by
    rw [get?_changeEntries]
    exact Option.map_id'
  have same : (changeEntries (requoteCompiler quotes) given).isEmpty = given.isEmpty :=
    List.isEmpty_map
  simp only [CompilerSettings.ofEntries, enabled, command, arguments, timeout, same]
  split
  · next empty =>
    rw [List.isEmpty_iff.mp empty]
    simp [compilerWithQuotes, get?, Except.map, pure, Except.pure]
  · cases get? given "timeout" with
    | none => rfl
    | some value =>
      dsimp only
      cases value.number? <;> rfl

theorem ofEntries_requote (tree : Tree) (root : Location) (quotes : Position → Bool)
    (entries : Value.Entries) :
    ofEntries tree root (requote quotes entries) =
      (ofEntries tree root entries).map (withQuotes quotes entries) := by
  have compiler : sectionOf (requote quotes entries) "compiler" =
      changeEntries (requoteCompiler quotes) (sectionOf entries "compiler") :=
    sectionOf_changeEntries (by rfl) entries
  have aliases : TypeAliases.ofValue
        ((get? (sectionOf (requote quotes entries) "types") "aliases").getD .null) =
      TypeAliases.ofValue ((get? (sectionOf entries "types") "aliases").getD .null) := by
    have inside : sectionOf (requote quotes entries) "types" =
        changeEntries (requoteTypes quotes) (sectionOf entries "types") :=
      sectionOf_changeEntries (by rfl) entries
    rw [inside, get?_changeEntries]
    cases get? (sectionOf entries "types") "aliases" with
    | none => rfl
    | some value => exact TypeAliases.ofValue_quoted _ value
  have parser : givenText (requote quotes entries) "parser" = givenText entries "parser" :=
    givenText_changeEntries (by rfl) entries
  have templatesDir : givenText (requote quotes entries) "templates_dir" =
      givenText entries "templates_dir" :=
    givenText_changeEntries (by rfl) entries
  have excludePaths : ((get? (requote quotes entries) "exclude_paths").map texts).getD [] = _ :=
    texts_changeEntries (show requoteValue quotes (.text "exclude_paths") = _ by rfl) entries
  simp only [ofEntries, layout_requote, compiler, compiler_requote, aliases, parser, templatesDir,
    excludePaths]
  -- What can fail is now the same on both sides, so it fails on both or on neither.
  cases checkLayout tree root (LayoutNames.ofEntries (sectionOf entries "layout")) with
  | error error => rfl
  | ok =>
    cases CompilerSettings.ofEntries (sectionOf entries "compiler") with
    | error error => rfl
    | ok compiler =>
      cases TypeAliases.ofValue ((get? (sectionOf entries "types") "aliases").getD .null) <;> rfl

/-- No quotes are put around a zero that is to switch the compiler off, nor around a number in the
place of a list. -/
structure Spared (quotes : Position → Bool) (entries : Value.Entries) : Prop where
  enabled : quotes .enabled = true → get? (sectionOf entries "compiler") "enabled" ≠ some (.int 0)
  arguments : quotes .arguments = true →
    ∀ number, get? (sectionOf entries "compiler") "args" ≠ some (.int number)
  excludePaths : quotes .excludePaths = true →
    ∀ number, get? entries "exclude_paths" ≠ some (.int number)

theorem quotedTexts_eq_iff (alone : Bool) (given : Option Value) :
    (if alone then (given.bind alone?).getD ((given.map texts).getD [])
      else (given.map texts).getD []) = (given.map texts).getD [] ↔
      (alone = true → ∀ number, given ≠ some (.int number)) := by
  cases alone with
  | false => simp
  | true =>
    cases given with
    | none => simp
    | some value => cases value <;> simp [alone?, texts]

theorem quotedEnabled_eq_iff (quotes : Bool) (given : Option Value) :
    ((given.bind truth?).getD true && !(quotes && given.any isZero)) =
        (given.bind truth?).getD true ↔
      (quotes = true → given ≠ some (.int 0)) := by
  cases quotes with
  | false => simp
  | true =>
    cases given with
    | none => simp
    | some value => cases value <;> simp [isZero, truth?]

theorem compiler_of_ofEntries {given : Value.Entries} {compiler : CompilerSettings}
    (accepted : CompilerSettings.ofEntries given = .ok compiler) :
    compiler.enabled = ((get? given "enabled").bind truth?).getD true ∧
      compiler.arguments = ((get? given "args").map texts).getD [] := by
  rw [CompilerSettings.ofEntries] at accepted
  split at accepted
  · next empty =>
    rw [List.isEmpty_iff.mp empty]
    cases accepted
    exact ⟨rfl, rfl⟩
  · revert accepted
    -- The timeout is the only thing that can go wrong, given or not.
    split
    all_goals
      intro accepted
      obtain ⟨timeout, -, made⟩ := Except.bind_eq_ok.mp accepted
      cases made
      exact ⟨rfl, rfl⟩

theorem withQuotes_eq_iff {tree : Tree} {root : Location} {quotes : Position → Bool}
    {entries : Value.Entries} {settings : Settings}
    (accepted : ofEntries tree root entries = .ok settings) :
    withQuotes quotes entries settings = settings ↔ Spared quotes entries := by
  obtain ⟨_, -, later⟩ := Except.bind_eq_ok.mp accepted
  obtain ⟨compiler, made, later⟩ := Except.bind_eq_ok.mp later
  obtain ⟨aliases, -, result⟩ := Except.bind_eq_ok.mp later
  cases result
  obtain ⟨enabled, arguments⟩ := compiler_of_ofEntries made
  obtain ⟨switch, command, texts, timeout⟩ := compiler
  subst enabled arguments
  simp only [withQuotes, compilerWithQuotes, Settings.mk.injEq, CompilerSettings.mk.injEq,
    quotedEnabled_eq_iff, quotedTexts_eq_iff, true_and, and_true]
  exact ⟨fun ⟨⟨enabled, arguments⟩, excludePaths⟩ => ⟨enabled, arguments, excludePaths⟩,
    fun spared => ⟨⟨spared.enabled, spared.arguments⟩, spared.excludePaths⟩⟩

/-- Whether numbers stand between quotes does not matter, wherever they are read, but for a zero
that switches the compiler off and for a number in the place of a list. -/
theorem quotes_matter_exactly (tree : Tree) (root : Location) (quotes : Position → Bool)
    (entries : Value.Entries) :
    ofEntries tree root (requote quotes entries) =
        (ofEntries tree root entries).map (withQuotes quotes entries) ∧
      (ofEntries tree root (requote quotes entries) = ofEntries tree root entries ↔
        (∃ error, ofEntries tree root entries = .error error) ∨ Spared quotes entries) := by
  have requoted := ofEntries_requote tree root quotes entries
  refine ⟨requoted, ?_⟩
  rw [requoted]
  cases outcome : ofEntries tree root entries with
  | error error => simp [Except.map]
  | ok settings => simpa [Except.map] using withQuotes_eq_iff outcome

def switchedBy (value : Value) : Value.Entries :=
  [(.text "compiler", .dict [(.text "enabled", value)])]

theorem quotedZero_switches_off :
    let tree : Tree := { entries := [(["w"], .directory)] }
    requote (fun _ => true) (switchedBy (.int 0)) = switchedBy (.text "0") ∧
      (ofEntries tree ["w"] (switchedBy (.int 0))).map (·.compiler.enabled) = .ok true ∧
      (ofEntries tree ["w"] (switchedBy (.text "0"))).map (·.compiler.enabled) = .ok false := by
  intro tree
  have unlinked : tree.Unlinked := by
    intro location link linked
    by_cases top : location = []
    · simp [top] at linked
    · simpa [tree] using Tree.mem_entries_of_found top linked
  have plain : LayoutNames.Plain {} := by
    refine ⟨by decide, fun key => ?_⟩
    cases key <;> decide
  have checked : checkLayout tree ["w"] {} = .ok () :=
    (checkLayout_eq_ok_iff unlinked (by decide) plain).mpr (by decide)
  have loaded : ∀ value, (ofEntries tree ["w"] (switchedBy value)).map (·.compiler.enabled) =
      .ok (value.truth?.getD true) := by
    intro value
    have standard : LayoutNames.ofEntries (sectionOf (switchedBy value) "layout") = {} := rfl
    rw [ofEntries, standard, checked]
    rfl
  have zero : (Value.text "0").truth?.getD true = false := by decide
  exact ⟨rfl, loaded _, by rw [loaded, zero]⟩

end Settings

end FfiBindings
