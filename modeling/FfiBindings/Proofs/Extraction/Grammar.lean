import FfiBindings.Extraction.Scan
import FfiBindings.Proofs.Text
import Mathlib.Computability.Language

-- The reader takes as many blanks as there are and never goes back, while the grammar lets blanks
-- be divided in any way, so every step of the reader is shown to take exactly the strings of a
-- language in front of what may follow them.

set_option autoImplicit false

namespace FfiBindings.Extraction

open Text

def literal (word : String) : Language Char := {word.toList}

def blanks : Language Char := {text | ∀ c ∈ text, isBlank c = true}

instance (text : List Char) : Decidable (text ∈ blanks) :=
  inferInstanceAs (Decidable (∀ c ∈ text, isBlank c = true))

theorem nil_mem_blanks : [] ∈ blanks := List.forall_mem_nil _

def gap : Language Char := {text | text ≠ [] ∧ ∀ c ∈ text, isBlank c = true}

instance (text : List Char) : Decidable (text ∈ gap) :=
  inferInstanceAs (Decidable (text ≠ [] ∧ ∀ c ∈ text, isBlank c = true))

def attributeWord : Language Char :=
  literal "no_mangle" +
    literal "unsafe" * blanks * literal "(" * blanks * literal "no_mangle" * blanks * literal ")"

def marker : Language Char :=
  literal "#[" * blanks * attributeWord * blanks * literal "]"

def qualifiers : Language Char :=
  literal "pub" * gap * (1 + literal "unsafe" * gap) * literal "extern" * gap * literal "\"C\"" *
    gap * literal "fn" * gap

-- The parts of a declaration that are not fixed: its name, what stands between its parentheses, and
-- what stands behind its arrow, if it has one.
structure Groups where
  name : List Char
  arguments : List Char
  clause : Option (List Char)

def IsReturnClause (clause : Option (List Char)) : Prop :=
  ∀ type ∈ clause, type ≠ [] ∧ '{' ∉ type

def returnClause : Option (List Char) → Language Char
  | none => 1
  | some type => literal "->" * {type}

def returnType : Option (List Char) → String
  | none => voidType
  | some type => if type.all isBlank then voidType else String.ofList (normaliseChars type)

namespace Groups

structure Proper (groups : Groups) : Prop where
  name_ne_nil : groups.name ≠ []
  word : ∀ c ∈ groups.name, isWordChar c = true
  arguments : ')' ∉ groups.arguments
  clause : IsReturnClause groups.clause

def declarations (groups : Groups) : Language Char :=
  marker * blanks * qualifiers * {groups.name} * blanks *
    literal "(" * {groups.arguments} * literal ")" * blanks * returnClause groups.clause * blanks *
    literal "\x7b"

def signature (groups : Groups) : Signature :=
  { name := String.ofList groups.name
    parameters := parameters groups.arguments
    returns := returnType groups.clause }

end Groups

/-- A text is a declaration, and this is what it says. -/
def Declares (text : List Char) (signature : Signature) : Prop :=
  ∃ groups : Groups, groups.Proper ∧ text ∈ groups.declarations ∧ signature = groups.signature

def Begins (language : Language Char) (c : Char) : Prop :=
  ∀ text ∈ language, text.head? = some c

theorem begins_literal {word : String} {c : Char} (head : word.toList.head? = some c) :
    Begins (literal word) c := by
  rintro _ rfl
  exact head

theorem Begins.mul {language other : Language Char} {c : Char} (begins : Begins language c) :
    Begins (language * other) c := by
  intro text member
  obtain ⟨front, inside, back, -, rfl⟩ := Language.mem_mul.mp member
  simp [List.head?_append, begins front inside]

def Visible (language : Language Char) : Prop :=
  ∀ text ∈ language, ∀ rest, Solid (text ++ rest)

theorem Visible.mul {language other : Language Char} (visible : Visible language) :
    Visible (language * other) := by
  intro text member rest
  obtain ⟨front, inside, back, -, rfl⟩ := Language.mem_mul.mp member
  rw [List.append_assoc]
  exact visible front inside _

theorem Visible.add {language other : Language Char} (visible : Visible language)
    (alsoVisible : Visible other) : Visible (language + other) := by
  rintro text (first | second)
  · exact visible text first
  · exact alsoVisible text second

theorem Begins.visible {language : Language Char} {c : Char} (begins : Begins language c)
    (letter : isBlank c = false) : Visible language := by
  intro text member rest other first
  rw [List.head?_append, begins text member] at first
  cases first
  exact letter

theorem Begins.ne_of_ne {language other : Language Char} {c d : Char} (begins : Begins language c)
    (begins' : Begins other d) (different : c ≠ d) :
    ∀ text ∈ language, ∀ text' ∈ other, ∀ rest rest', text ++ rest ≠ text' ++ rest' := by
  intro text inFirst text' inSecond rest rest' same
  have heads := congrArg List.head? same
  rw [List.head?_append, List.head?_append, begins text inFirst, begins' text' inSecond] at heads
  exact different (Option.some.inj heads)

/-- A reader takes exactly the strings of a language off a text, as long as what follows them is of
a kind that may follow. -/
def Takes (read : List Char → Option (List Char)) (language : Language Char)
    (onward : List Char → Prop) : Prop :=
  ∀ text rest, read text = some rest ↔ onward rest ∧ ∃ head ∈ language, text = head ++ rest

namespace Takes

variable {read next : List Char → Option (List Char)} {first second : Language Char}
  {onward later : List Char → Prop}

theorem bind (reads : Takes read first onward) (goesOn : Takes next second later)
    (allowed : ∀ head ∈ second, ∀ rest, later rest → onward (head ++ rest)) :
    Takes (fun text => (read text).bind next) (first * second) later := by
  intro text rest
  rw [Option.bind_eq_some_iff]
  constructor
  · rintro ⟨middle, taken, last⟩
    obtain ⟨-, front, inFirst, rfl⟩ := (reads _ _).mp taken
    obtain ⟨follows, back, inSecond, rfl⟩ := (goesOn _ _).mp last
    exact ⟨follows, front ++ back, Language.append_mem_mul inFirst inSecond, by simp⟩
  · rintro ⟨follows, head, inBoth, rfl⟩
    obtain ⟨front, inFirst, back, inSecond, rfl⟩ := Language.mem_mul.mp inBoth
    refine ⟨back ++ rest, (reads _ _).mpr ⟨allowed back inSecond rest follows, front, inFirst, ?_⟩,
      (goesOn _ _).mpr ⟨follows, back, inSecond, rfl⟩⟩
    exact List.append_assoc _ _ _

theorem bindAny (reads : Takes read first fun _ => True) (goesOn : Takes next second later) :
    Takes (fun text => (read text).bind next) (first * second) later :=
  reads.bind goesOn fun _ _ _ _ => trivial

theorem bindVisible (reads : Takes read first Solid) (goesOn : Takes next second later)
    (visible : Visible second) :
    Takes (fun text => (read text).bind next) (first * second) later :=
  reads.bind goesOn fun head member rest _ => visible head member rest

theorem afterBlanks (reads : Takes read first onward) (visible : Visible first) :
    Takes (fun text => read (dropBlank text)) (blanks * first) onward := by
  intro text rest
  constructor
  · intro taken
    obtain ⟨follows, head, inFirst, parts⟩ := (reads _ _).mp taken
    obtain ⟨front, blank, whole⟩ := eq_append_dropBlank text
    refine ⟨follows, front ++ head, Language.append_mem_mul blank inFirst, ?_⟩
    rw [whole, parts, List.append_assoc]
  · rintro ⟨follows, head, inBoth, rfl⟩
    obtain ⟨front, blank, back, inFirst, rfl⟩ := Language.mem_mul.mp inBoth
    -- However the grammar divides the blanks, all of them go before the first visible character.
    change read (dropBlank _) = _
    rw [List.append_assoc, dropBlank_append blank, dropBlank_of_solid (visible back inFirst rest)]
    exact (reads _ _).mpr ⟨follows, back, inFirst, rfl⟩

theorem orElse (reads : Takes read first onward) (instead : Takes next second onward)
    (apart : ∀ head ∈ first, ∀ head' ∈ second, ∀ rest rest', head ++ rest ≠ head' ++ rest') :
    Takes (fun text => (read text).orElse fun _ => next text) (first + second) onward := by
  intro text rest
  cases taken : read text with
  | some other =>
    have same : ((read text).orElse fun _ => next text) = read text := by rw [taken, Option.orElse]
    obtain ⟨-, front, inFirst, whole⟩ := (reads _ _).mp taken
    change ((read text).orElse fun _ => next text) = some rest ↔ _
    rw [same, reads]
    constructor
    · rintro ⟨follows, head, member, parts⟩
      exact ⟨follows, head, .inl member, parts⟩
    · rintro ⟨follows, head, member | member, parts⟩
      · exact ⟨follows, head, member, parts⟩
      -- The text would begin with strings of both languages.
      · exact absurd (whole.symm.trans parts) (apart front inFirst head member other rest)
  | none =>
    have same : ((read text).orElse fun _ => next text) = next text := by rw [taken, Option.orElse]
    change ((read text).orElse fun _ => next text) = some rest ↔ _
    rw [same, instead]
    constructor
    · rintro ⟨follows, head, member, parts⟩
      exact ⟨follows, head, .inr member, parts⟩
    · rintro ⟨follows, head, member | member, parts⟩
      · have := (reads text rest).mpr ⟨follows, head, member, parts⟩
        rw [taken] at this
        cases this
      · exact ⟨follows, head, member, parts⟩

end Takes

theorem expect_takes (word : String) : Takes (expect word) (literal word) (fun _ => True) := by
  intro text rest
  constructor
  · exact fun found => ⟨trivial, _, rfl, dropPrefix?_eq_some found⟩
  · rintro ⟨-, _, rfl, rfl⟩
    exact dropPrefix?_append _ _

theorem expectAfterBlanks_takes (word : String) {c : Char} (head : word.toList.head? = some c)
    (letter : isBlank c = false) :
    Takes (expectAfterBlanks word) (blanks * literal word) (fun _ => True) :=
  (expect_takes word).afterBlanks ((begins_literal head).visible letter)

theorem skipBlanks?_takes : Takes skipBlanks? gap Solid := by
  intro text rest
  constructor
  · intro skipped
    cases text with
    | nil => simp [skipBlanks?] at skipped
    | cons c tail =>
      simp only [skipBlanks?] at skipped
      split at skipped
      · next blank =>
        cases skipped
        obtain ⟨front, more, whole⟩ := eq_append_dropBlank tail
        refine ⟨solid_dropBlank tail, c :: front, ⟨by simp, ?_⟩, ?_⟩
        · exact List.forall_mem_cons.mpr ⟨blank, more⟩
        · rw [List.cons_append, ← whole]
      · cases skipped
  · rintro ⟨solid, head, ⟨nonempty, blank⟩, rfl⟩
    cases head with
    | nil => exact absurd rfl nonempty
    | cons c front =>
      rw [List.forall_mem_cons] at blank
      simp only [List.cons_append, skipBlanks?, blank.1, if_true]
      rw [dropBlank_append blank.2, dropBlank_of_solid solid]

theorem keyword?_takes (word : String) : Takes (keyword? word) (literal word * gap) Solid :=
  (expect_takes word).bindAny skipBlanks?_takes

theorem attributeWord?_takes : Takes attributeWord? attributeWord (fun _ => True) := by
  have guarded := (expect_takes "unsafe").bindAny <|
    (expectAfterBlanks_takes "(" rfl rfl).bindAny <|
    (expectAfterBlanks_takes "no_mangle" rfl rfl).bindAny (expectAfterBlanks_takes ")" rfl rfl)
  have plain : Begins (literal "no_mangle") 'n' := begins_literal rfl
  have other : Begins (literal "unsafe") 'u' := begins_literal rfl
  have either := (expect_takes "no_mangle").orElse guarded (plain.ne_of_ne other.mul (by decide))
  intro text rest
  have same : attributeWord? text = (expect "no_mangle" text).orElse fun _ =>
      (expect "unsafe" text).bind fun text => (expectAfterBlanks "(" text).bind fun text =>
        (expectAfterBlanks "no_mangle" text).bind (expectAfterBlanks ")") := by
    unfold attributeWord?
    cases expect "no_mangle" text <;> rfl
  rw [same, either text rest]
  simp only [attributeWord, mul_assoc]

theorem visible_attributeWord : Visible attributeWord := by
  have plain : Begins (literal "no_mangle") 'n' := begins_literal rfl
  have other : Begins (literal "unsafe") 'u' := begins_literal rfl
  simp only [attributeWord, mul_assoc]
  exact (plain.visible rfl).add (other.mul.visible rfl)

theorem marker?_takes : Takes marker? marker (fun _ => True) := by
  have whole := (expect_takes "#[").bindAny <|
    (attributeWord?_takes.afterBlanks visible_attributeWord).bindAny
      (expectAfterBlanks_takes "]" rfl rfl)
  rw [marker]
  simp only [mul_assoc] at whole ⊢
  exact whole

theorem extern_begins : Begins (literal "extern" * gap) 'e' := (begins_literal rfl).mul

theorem unsafe_begins : Begins (literal "unsafe" * gap) 'u' := (begins_literal rfl).mul

theorem extern_takes :
    Takes (fun text => keyword? "extern" ((keyword? "unsafe" text).getD text))
      ((1 + literal "unsafe" * gap) * (literal "extern" * gap)) Solid := by
  have both := (keyword?_takes "unsafe").bindVisible (keyword?_takes "extern")
    (extern_begins.visible rfl)
  have either := both.orElse (keyword?_takes "extern")
    (unsafe_begins.mul.ne_of_ne extern_begins (by decide))
  intro text rest
  have same : keyword? "extern" ((keyword? "unsafe" text).getD text) =
      ((keyword? "unsafe" text).bind (keyword? "extern")).orElse
        fun _ => keyword? "extern" text := by
    cases skipped : keyword? "unsafe" text with
    | none => rfl
    | some onward =>
      simp only [Option.getD_some, Option.bind_some]
      cases taken : keyword? "extern" onward with
      | some _ => rfl
      | none =>
        cases unexpected : keyword? "extern" text with
        | none => rfl
        | some other =>
          obtain ⟨-, front, inside, parts⟩ := (keyword?_takes _ _ _).mp skipped
          obtain ⟨-, front', inside', parts'⟩ := (keyword?_takes _ _ _).mp unexpected
          exact absurd (parts.symm.trans parts')
            (unsafe_begins.ne_of_ne extern_begins (by decide) front inside front' inside' _ _)
  change keyword? "extern" _ = _ ↔ _
  rw [same, either text rest, add_mul, one_mul, add_comm]

theorem qualifiers?_takes : Takes qualifiers? (blanks * qualifiers) Solid := by
  have visibility : Begins (literal "pub" * gap) 'p' := (begins_literal rfl).mul
  have abi : Begins (literal "\"C\"" * gap) '"' := (begins_literal rfl).mul
  have function : Begins (literal "fn" * gap) 'f' := (begins_literal rfl).mul
  have linkage : Visible ((1 + literal "unsafe" * gap) * (literal "extern" * gap)) := by
    rw [add_mul, one_mul]
    exact (extern_begins.visible rfl).add (unsafe_begins.mul.visible rfl)
  have whole := ((keyword?_takes "pub").afterBlanks (visibility.visible rfl)).bindVisible
    (extern_takes.bindVisible
      ((keyword?_takes "\"C\"").bindVisible (keyword?_takes "fn") (function.visible rfl))
      (abi.mul.visible rfl))
    linkage.mul
  rw [qualifiers]
  simp only [mul_assoc] at whole ⊢
  exact whole

theorem name?_eq_some_iff {text name rest : List Char} :
    name? text = some (name, rest) ↔
      name ≠ [] ∧ (∀ c ∈ name, isWordChar c = true) ∧ (∀ c ∈ rest.head?, isWordChar c = false) ∧
        text = name ++ rest := by
  unfold name?
  constructor
  · intro found
    simp only at found
    split at found
    · cases found
    · next nonempty =>
      cases found
      refine ⟨by simpa using nonempty, List.all_eq_true.mp List.all_takeWhile, ?_,
        List.takeWhile_append_dropWhile.symm⟩
      intro c head
      have stopped := List.head?_dropWhile_not isWordChar text
      rw [Option.mem_def] at head
      simpa [head] using stopped
  · rintro ⟨nonempty, word, stops, rfl⟩
    have taken : rest.takeWhile isWordChar = [] := by
      cases rest with
      | nil => rfl
      | cons c others => simp [stops c rfl]
    have dropped : rest.dropWhile isWordChar = rest := by
      cases rest with
      | nil => rfl
      | cons c others => simp [stops c rfl]
    rw [List.takeWhile_append_of_pos word, List.dropWhile_append_of_pos word, taken, dropped]
    simp [nonempty]

theorem returns?_eq_some_iff {text clause rest : List Char} :
    returns? text = some (clause, rest) ↔
      (clause = [] ∧ ∃ front ∈ blanks, text = front ++ '{' :: rest) ∨
      (clause ≠ [] ∧ '{' ∉ clause ∧
        ∃ front ∈ blanks, text = front ++ '-' :: '>' :: (clause ++ '{' :: rest)) := by
  constructor
  · intro found
    unfold returns? at found
    split at found
    · next behind arrow =>
      obtain ⟨-, head, member, rfl⟩ := (expectAfterBlanks_takes "->" rfl rfl _ _).mp arrow
      obtain ⟨front, blank, _, rfl, rfl⟩ := Language.mem_mul.mp member
      split at found
      · cases found
      · cases found
      · next type body nonempty cut =>
        cases found
        obtain ⟨clear, rfl⟩ := cutAt_eq_some_iff.mp cut
        refine .inr ⟨?_, clear, front, blank, by simp⟩
        rintro rfl
        exact nonempty rfl
    · obtain ⟨body, brace, same⟩ := Option.map_eq_some_iff.mp found
      cases same
      obtain ⟨-, head, member, rfl⟩ := (expectAfterBlanks_takes "\x7b" rfl rfl _ _).mp brace
      obtain ⟨front, blank, _, rfl, rfl⟩ := Language.mem_mul.mp member
      exact .inl ⟨rfl, front, blank, by simp⟩
  · rintro (⟨rfl, front, blank, rfl⟩ | ⟨nonempty, clear, front, blank, rfl⟩)
    · have visible : dropBlank (front ++ '{' :: rest) = '{' :: rest := by
        rw [dropBlank_append blank]
        rfl
      simp only [returns?, expectAfterBlanks, visible]
      rfl
    · have visible : dropBlank (front ++ '-' :: '>' :: (clause ++ '{' :: rest)) =
          '-' :: '>' :: (clause ++ '{' :: rest) := by
        rw [dropBlank_append blank]
        rfl
      have arrow : expect "->" ('-' :: '>' :: (clause ++ '{' :: rest)) =
          some (clause ++ '{' :: rest) := rfl
      have cut : cutAt '{' (clause ++ '{' :: rest) = (clause, some rest) :=
        cutAt_eq_some_iff.mpr ⟨clear, rfl⟩
      simp only [returns?, expectAfterBlanks, visible, arrow, cut]

theorem returnType_some {trailing : List Char} (blank : trailing ∈ blanks) (type : List Char) :
    (if (normaliseChars (type ++ trailing)).isEmpty then voidType
      else String.ofList (normaliseChars (type ++ trailing))) = returnType (some type) := by
  have same : normaliseChars (type ++ trailing) = normaliseChars type := by
    rw [normaliseChars, words_append_blanks blank, normaliseChars]
  have void : (normaliseChars type).isEmpty = type.all isBlank := by
    rw [Bool.eq_iff_iff, List.isEmpty_iff, List.all_eq_true]
    exact normaliseChars_eq_nil_iff
  rw [same, void, returnType]

def ending (clause : Option (List Char)) : Language Char :=
  blanks * (returnClause clause * (blanks * literal "\x7b"))

theorem mem_ending_none {text : List Char} :
    text ∈ ending none ↔ ∃ front ∈ blanks, text = front ++ ['{'] := by
  rw [ending, returnClause, one_mul]
  constructor
  · intro member
    obtain ⟨front, blank, back, inside, rfl⟩ := Language.mem_mul.mp member
    obtain ⟨more, alsoBlank, _, rfl, rfl⟩ := Language.mem_mul.mp inside
    refine ⟨front ++ more, ?_, by simp⟩
    exact fun c letter => (List.mem_append.mp letter).elim (blank c) (alsoBlank c)
  · rintro ⟨front, blank, rfl⟩
    exact Language.append_mem_mul blank
      (Language.mem_mul.mpr ⟨[], nil_mem_blanks, ['{'], rfl, rfl⟩)

theorem mem_ending_some {text type : List Char} :
    text ∈ ending (some type) ↔ ∃ front ∈ blanks, ∃ trailing ∈ blanks,
      text = front ++ '-' :: '>' :: (type ++ trailing ++ ['{']) := by
  simp only [ending, returnClause, mul_assoc]
  constructor
  · intro member
    obtain ⟨front, blank, clause, arrow, rfl⟩ := Language.mem_mul.mp member
    obtain ⟨_, rfl, typed, inside, rfl⟩ := Language.mem_mul.mp arrow
    obtain ⟨_, rfl, back, brace, rfl⟩ := Language.mem_mul.mp inside
    obtain ⟨trailing, alsoBlank, _, rfl, rfl⟩ := Language.mem_mul.mp brace
    exact ⟨front, blank, trailing, alsoBlank, by simp⟩
  · rintro ⟨front, blank, trailing, alsoBlank, rfl⟩
    refine Language.append_mem_mul blank (Language.mem_mul.mpr ⟨_, rfl, _,
      Language.append_mem_mul rfl (Language.append_mem_mul alsoBlank rfl), ?_⟩)
    simp

theorem returns?_iff_ending {text rest : List Char} {type : String} :
    (∃ clause, returns? text = some (clause, rest) ∧
      (if (normaliseChars clause).isEmpty then voidType
        else String.ofList (normaliseChars clause)) = type) ↔
    ∃ clause, IsReturnClause clause ∧ returnType clause = type ∧
      ∃ head ∈ ending clause, text = head ++ rest := by
  constructor
  · rintro ⟨clause, found, rfl⟩
    rcases returns?_eq_some_iff.mp found with
      ⟨rfl, front, blank, rfl⟩ | ⟨nonempty, clear, front, blank, rfl⟩
    · exact ⟨none, by simp [IsReturnClause], rfl, front ++ ['{'],
        mem_ending_none.mpr ⟨front, blank, rfl⟩, by simp⟩
    · refine ⟨some clause, ?_, ?_, _,
        mem_ending_some.mpr ⟨front, blank, [], nil_mem_blanks, rfl⟩, by simp⟩
      · rintro _ ⟨⟩
        exact ⟨nonempty, clear⟩
      · simpa using (returnType_some nil_mem_blanks clause).symm
  · rintro ⟨clause, proper, rfl, head, member, rfl⟩
    cases clause with
    | none =>
      obtain ⟨front, blank, rfl⟩ := mem_ending_none.mp member
      exact ⟨[], returns?_eq_some_iff.mpr (.inl ⟨rfl, front, blank, by simp⟩), rfl⟩
    | some type =>
      obtain ⟨front, blank, trailing, alsoBlank, rfl⟩ := mem_ending_some.mp member
      obtain ⟨nonempty, clear⟩ := proper type rfl
      refine ⟨type ++ trailing, returns?_eq_some_iff.mpr (.inr ⟨?_, ?_, front, blank, by simp⟩),
        returnType_some alsoBlank type⟩
      · simp [nonempty]
      · intro brace
        rcases List.mem_append.mp brace with inside | after
        · exact clear inside
        · exact absurd (alsoBlank _ after) (by decide)

theorem Groups.mem_declarations {groups : Groups} {text : List Char} :
    text ∈ groups.declarations ↔ ∃ front ∈ marker, ∃ words ∈ blanks * qualifiers,
      ∃ opening ∈ blanks * literal "(", ∃ tail ∈ ending groups.clause,
        text = front ++ (words ++ (groups.name ++
          (opening ++ (groups.arguments ++ ')' :: tail)))) := by
  have shape : groups.declarations = marker * ((blanks * qualifiers) * ({groups.name} *
      ((blanks * literal "(") * ({groups.arguments} * (literal ")" * ending groups.clause))))) := by
    simp only [declarations, ending, mul_assoc]
  rw [shape]
  constructor
  · intro member
    obtain ⟨front, marked, _, afterMarker, rfl⟩ := Language.mem_mul.mp member
    obtain ⟨words, qualified, _, afterWords, rfl⟩ := Language.mem_mul.mp afterMarker
    obtain ⟨_, rfl, _, afterName, rfl⟩ := Language.mem_mul.mp afterWords
    obtain ⟨opening, opened, _, afterOpening, rfl⟩ := Language.mem_mul.mp afterName
    obtain ⟨_, rfl, _, afterArguments, rfl⟩ := Language.mem_mul.mp afterOpening
    obtain ⟨_, rfl, tail, ended, rfl⟩ := Language.mem_mul.mp afterArguments
    exact ⟨front, marked, words, qualified, opening, opened, tail, ended, rfl⟩
  · rintro ⟨front, marked, words, qualified, opening, opened, tail, ended, rfl⟩
    have closed : ')' :: tail ∈ literal ")" * ending groups.clause :=
      Language.mem_mul.mpr ⟨_, rfl, tail, ended, rfl⟩
    exact Language.append_mem_mul marked (Language.append_mem_mul qualified
      (Language.append_mem_mul rfl (Language.append_mem_mul opened
        (Language.append_mem_mul rfl closed))))

theorem solid_word {name : List Char} (nonempty : name ≠ [])
    (word : ∀ c ∈ name, isWordChar c = true) (rest : List Char) : Solid (name ++ rest) := by
  obtain ⟨first, others, rfl⟩ := List.exists_cons_of_ne_nil nonempty
  intro c head
  cases head
  rw [Bool.eq_false_iff]
  intro blank
  exact absurd (word first List.mem_cons_self) (by simp [notWordChar_of_isBlank blank])

theorem stops_of_opening {opening : List Char} (opened : opening ∈ blanks * literal "(")
    (rest : List Char) : ∀ c ∈ (opening ++ rest).head?, isWordChar c = false := by
  obtain ⟨front, blank, _, rfl, rfl⟩ := Language.mem_mul.mp opened
  intro c head
  cases front with
  | nil =>
    cases head
    decide
  | cons first others =>
    cases head
    exact notWordChar_of_isBlank (blank _ List.mem_cons_self)

-- A declaration is read off the front of a text exactly where one stands, and so is what it says.
theorem declaration?_eq_some_iff {text rest : List Char} {signature : Signature} :
    declaration? text = some (signature, rest) ↔
      ∃ head, Declares head signature ∧ text = head ++ rest := by
  constructor
  · intro found
    simp only [declaration?, Option.bind_eq_bind, Option.bind_eq_some_iff, Prod.exists,
      Option.pure_def, Option.some.injEq, Prod.mk.injEq] at found
    obtain ⟨_, marked, _, qualified, name, _, named, inner, opened, _, closed, clause, _, returned,
      made, rfl⟩ := found
    obtain ⟨-, front, inMarker, rfl⟩ := (marker?_takes _ _).mp marked
    obtain ⟨-, words, inQualifiers, rfl⟩ := (qualifiers?_takes _ _).mp qualified
    obtain ⟨nonempty, word, -, rfl⟩ := name?_eq_some_iff.mp named
    obtain ⟨-, opening, inOpening, rfl⟩ := (expectAfterBlanks_takes "(" rfl rfl _ _).mp opened
    rcases cut : cutAt ')' inner with ⟨arguments, after⟩
    rw [cut] at closed made
    cases closed
    obtain ⟨clear, rfl⟩ := cutAt_eq_some_iff.mp cut
    obtain ⟨type, proper, typed, tail, inEnding, rfl⟩ :=
      returns?_iff_ending.mp ⟨clause, returned, rfl⟩
    refine ⟨_, ⟨⟨name, arguments, type⟩, ⟨nonempty, word, clear, proper⟩,
      Groups.mem_declarations.mpr
        ⟨front, inMarker, words, inQualifiers, opening, inOpening, tail, inEnding, rfl⟩, ?_⟩,
      by simp⟩
    rw [← made, Groups.signature, typed]
  · rintro ⟨head, ⟨groups, proper, member, rfl⟩, rfl⟩
    obtain ⟨front, inMarker, words, inQualifiers, opening, inOpening, tail, inEnding, rfl⟩ :=
      Groups.mem_declarations.mp member
    obtain ⟨clause, returned, typed⟩ := returns?_iff_ending.mpr
      ⟨groups.clause, proper.clause, rfl, tail, inEnding, (rfl : tail ++ rest = tail ++ rest)⟩
    have cut : cutAt ')' (groups.arguments ++ ')' :: (tail ++ rest)) =
        (groups.arguments, some (tail ++ rest)) := cutAt_eq_some_iff.mpr ⟨proper.arguments, rfl⟩
    have opened := (expectAfterBlanks_takes "(" rfl rfl _ _).mpr
      ⟨trivial, opening, inOpening,
        (rfl : opening ++ (groups.arguments ++ ')' :: (tail ++ rest)) = _)⟩
    have named := name?_eq_some_iff.mpr ⟨proper.name_ne_nil, proper.word,
      stops_of_opening inOpening (groups.arguments ++ ')' :: (tail ++ rest)), rfl⟩
    have visible := solid_word proper.name_ne_nil proper.word
      (opening ++ (groups.arguments ++ ')' :: (tail ++ rest)))
    have qualified := (qualifiers?_takes _ _).mpr ⟨visible, words, inQualifiers, rfl⟩
    have marked := (marker?_takes _ _).mpr ⟨trivial, front, inMarker,
      (rfl : front ++ (words ++ (groups.name ++ (opening ++
        (groups.arguments ++ ')' :: (tail ++ rest))))) = _)⟩
    simp only [List.append_assoc, List.cons_append, declaration?, Option.bind_eq_bind, marked,
      qualified, named, opened, cut, returned, Option.bind_some, typed, Option.pure_def]
    rfl

theorem exists_declares_of_mem_extract {text : List Char} {signature : Signature}
    (member : signature ∈ extract text) : ∃ head, Declares head signature := by
  fun_induction extract text with
  | case1 => cases member
  | case2 c rest first remaining found ih =>
    rcases List.mem_cons.mp member with rfl | later
    · obtain ⟨head, declared, -⟩ := declaration?_eq_some_iff.mp found
      exact ⟨head, declared⟩
    · exact ih later
  | case3 c rest none ih => exact ih member

end FfiBindings.Extraction
