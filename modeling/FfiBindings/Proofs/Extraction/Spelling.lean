import FfiBindings.Proofs.Extraction.Parameters
import FfiBindings.Proofs.Extraction.Spans

set_option autoImplicit false

namespace FfiBindings.Extraction

open Text

theorem Declares.head_eq {head : List Char} {signature : Signature}
    (declared : Declares head signature) : head.head? = some '#' := by
  obtain ⟨groups, -, member, -⟩ := declared
  obtain ⟨front, marked, words, -, opening, -, tail, -, rfl⟩ := Groups.mem_declarations.mp member
  have begins : Begins marker '#' := by
    simp only [marker, mul_assoc]
    exact (begins_literal rfl).mul
  rw [List.head?_append, begins front marked, Option.some_or]

theorem extract_nil : extract [] = [] := by
  rw [extract]

theorem extract_of_declares {head : List Char} {signature : Signature}
    (declared : Declares head signature) (rest : List Char) :
    extract (head ++ rest) = signature :: extract rest := by
  have found := declaration?_eq_some_iff.mpr ⟨head, declared, (rfl : head ++ rest = head ++ rest)⟩
  obtain ⟨c, tail, rfl⟩ := List.exists_cons_of_ne_nil declared.ne_nil
  rw [List.cons_append] at found ⊢
  rw [extract]
  split
  next other remaining found' =>
    rw [found] at found'
    cases found'
    rfl
  next none =>
    rw [found] at none
    cases none

theorem extract_of_notMem {text : List Char} (clear : '#' ∉ text) (rest : List Char) :
    extract (text ++ rest) = extract rest := by
  induction text with
  | nil => rfl
  | cons c others ih =>
    rw [List.mem_cons, not_or] at clear
    rw [List.cons_append, extract]
    split
    next signature remaining found =>
      obtain ⟨head, declared, whole⟩ := declaration?_eq_some_iff.mp found
      have first := congrArg List.head? whole
      rw [List.head?_append, declared.head_eq] at first
      exact absurd (Option.some.inj first).symm clear.1
    next => exact ih clear.2

abbrev Blanks := {text : List Char // text ∈ blanks}

abbrev Gap := {text : List Char // text ∈ gap}

theorem notMem_of_blank {c : Char} (visible : isBlank c = false) {text : List Char}
    (blank : ∀ d ∈ text, isBlank d = true) : c ∉ text := by
  intro letter
  rw [blank c letter] at visible
  cases visible

structure Token (excluded : List Char) where
  text : List Char
  unbroken : Unbroken text
  free : ∀ c ∈ excluded, c ∉ text

structure SpelledType (excluded : List Char) where
  front : Blanks
  first : Token excluded
  others : List (Gap × Token excluded)
  back : Blanks

namespace SpelledType

variable {excluded : List Char}

def text (spelled : SpelledType excluded) : List Char :=
  spelled.front.1 ++ (spelled.first.text ++
    (spelled.others.flatMap (fun other => other.1.1 ++ other.2.text) ++ spelled.back.1))

def tokens (spelled : SpelledType excluded) : List (Token excluded) :=
  spelled.first :: spelled.others.map (·.2)

def type (spelled : SpelledType excluded) : String :=
  " ".intercalate (spelled.tokens.map fun token => String.ofList token.text)

theorem words_text (spelled : SpelledType excluded) :
    words spelled.text = spelled.tokens.map Token.text := by
  obtain ⟨front, first, others, back⟩ := spelled
  rw [text, words_blanks_append front.2]
  simp only [tokens]
  -- Each word is ended by the gap before the next one, the last by what stands behind the type.
  induction others generalizing first with
  | nil =>
    rw [List.flatMap_nil, List.nil_append, words_append_of_unbroken first.unbroken,
      words_eq_nil_iff.mpr back.2]
    · rfl
    · exact fun c head => back.2 c (List.mem_of_mem_head? head)
  | cons other rest ih =>
    obtain ⟨⟨gap, nonempty, blank⟩, next⟩ := other
    rw [List.flatMap_cons, List.append_assoc, List.append_assoc,
      words_append_of_unbroken first.unbroken, words_blanks_append blank, ih next]
    · rfl
    · intro c head
      rw [List.head?_append_of_ne_nil _ nonempty] at head
      exact blank c (List.mem_of_mem_head? head)

theorem normaliseChars_text (spelled : SpelledType excluded) :
    String.ofList (normaliseChars spelled.text) = spelled.type := by
  rw [← String.toList_inj, String.toList_ofList, normaliseChars, words_text,
    joinWith_eq_intercalate, type, String.toList_intercalate, List.map_map]
  simp [Function.comp_def]

theorem notMem_text {c : Char} (spelled : SpelledType excluded) (visible : isBlank c = false)
    (member : c ∈ excluded) : c ∉ spelled.text := by
  simp only [text, List.mem_append, List.mem_flatMap, not_or, not_exists, not_and]
  refine ⟨notMem_of_blank visible spelled.front.2, spelled.first.free c member, fun other _ => ?_,
    notMem_of_blank visible spelled.back.2⟩
  exact ⟨notMem_of_blank visible other.1.2.2, other.2.free c member⟩

theorem not_blank_text (spelled : SpelledType excluded) :
    ¬ ∀ c ∈ spelled.text, isBlank c = true := by
  intro blank
  have none := words_eq_nil_iff.mpr blank
  rw [words_text] at none
  cases none

end SpelledType

structure SpelledParameter where
  front : Blanks
  name : Token [',', ':', ')']
  middle : Blanks
  type : SpelledType [',', ')']

namespace SpelledParameter

def text (spelled : SpelledParameter) : List Char :=
  spelled.front.1 ++ (spelled.name.text ++ spelled.middle.1) ++ ':' :: spelled.type.text

def parameter (spelled : SpelledParameter) : Parameter :=
  { name := String.ofList spelled.name.text, type := spelled.type.type }

theorem bindingName_front (spelled : SpelledParameter) :
    bindingName (spelled.front.1 ++ (spelled.name.text ++ spelled.middle.1)) =
      spelled.name.text := by
  have trimmed : trimChars (spelled.front.1 ++ (spelled.name.text ++ spelled.middle.1)) =
      trimChars spelled.name.text := by
    rw [trimChars_blanks_append spelled.front.2, trimChars_append_blanks spelled.middle.2]
  rw [bindingName_congr trimmed, bindingName_of_trimmed spelled.name.unbroken.trimmed]
  -- A name in one piece has no space that could end a word before it.
  rintro ⟨bound, whole⟩
  have space : ' ' ∈ spelled.name.text := by simp [← whole]
  exact absurd (spelled.name.unbroken.visible ' ' space) (by decide)

theorem parameter?_text (spelled : SpelledParameter) :
    parameter? spelled.text = some spelled.parameter := by
  have clear : ':' ∉ spelled.front.1 ++ (spelled.name.text ++ spelled.middle.1) := by
    simp only [List.mem_append, not_or]
    exact ⟨notMem_of_blank rfl spelled.front.2, spelled.name.free ':' (by decide),
      notMem_of_blank rfl spelled.middle.2⟩
  rw [text, parameter?_colon clear, bindingName_front, SpelledType.normaliseChars_text, parameter]

theorem notMem_text {c : Char} (spelled : SpelledParameter) (visible : isBlank c = false)
    (excluded : c ∈ [',', ')']) : c ∉ spelled.text := by
  have named : ∀ d ∈ [',', ')'], d ∈ [',', ':', ')'] ∧ d ≠ ':' :=
    List.forall_mem_cons.mpr ⟨by decide, List.forall_mem_singleton.mpr (by decide)⟩
  simp only [text, List.mem_append, List.mem_cons, not_or]
  exact ⟨⟨notMem_of_blank visible spelled.front.2, spelled.name.free c (named c excluded).1,
    notMem_of_blank visible spelled.middle.2⟩, (named c excluded).2,
    spelled.type.notMem_text visible excluded⟩

end SpelledParameter

inductive ListPart where
  | blank (blanks : Blanks)
  | parameter (spelled : SpelledParameter)

namespace ListPart

def text : ListPart → List Char
  | blank blanks => blanks.1
  | parameter spelled => spelled.text

def parameter? : ListPart → Option Parameter
  | blank _ => none
  | parameter spelled => some spelled.parameter

theorem parameter?_text (part : ListPart) : Extraction.parameter? part.text = part.parameter? := by
  cases part with
  | blank blanks => exact parameter?_of_blank blanks.2
  | parameter spelled => exact spelled.parameter?_text

theorem notMem_text {c : Char} (part : ListPart) (visible : isBlank c = false)
    (excluded : c ∈ [',', ')']) : c ∉ part.text := by
  cases part with
  | blank blanks => exact notMem_of_blank visible blanks.2
  | parameter spelled => exact spelled.notMem_text visible excluded

end ListPart

inductive SpelledMarker where
  | plain (front back : Blanks)
  | guarded (front beforeOpening afterOpening beforeClosing back : Blanks)

namespace SpelledMarker

def text : SpelledMarker → List Char
  | plain front back =>
    "#[".toList ++ front.1 ++ "no_mangle".toList ++ back.1 ++ "]".toList
  | guarded front beforeOpening afterOpening beforeClosing back =>
    "#[".toList ++ front.1 ++
      ("unsafe".toList ++ beforeOpening.1 ++ "(".toList ++ afterOpening.1 ++ "no_mangle".toList ++
        beforeClosing.1 ++ ")".toList) ++
      back.1 ++ "]".toList

theorem text_mem (spelled : SpelledMarker) : spelled.text ∈ marker := by
  have around : ∀ front back : Blanks, ∀ word ∈ attributeWord,
      "#[".toList ++ front.1 ++ word ++ back.1 ++ "]".toList ∈ marker := by
    intro front back word member
    exact Language.append_mem_mul (Language.append_mem_mul (Language.append_mem_mul
      (Language.append_mem_mul rfl front.2) member) back.2) rfl
  cases spelled with
  | plain front back => exact around front back _ (.inl rfl)
  | guarded front beforeOpening afterOpening beforeClosing back =>
    refine around front back _ (.inr ?_)
    exact Language.append_mem_mul (Language.append_mem_mul (Language.append_mem_mul
      (Language.append_mem_mul (Language.append_mem_mul (Language.append_mem_mul rfl
        beforeOpening.2) rfl) afterOpening.2) rfl) beforeClosing.2) rfl

end SpelledMarker

structure SpelledHeader where
  marker : SpelledMarker
  beforeVisibility : Blanks
  afterVisibility : Gap
  afterGuard : Option Gap
  afterLinkage : Gap
  afterConvention : Gap
  afterKeyword : Gap

namespace SpelledHeader

def guardText : Option Gap → List Char
  | none => []
  | some gap => "unsafe".toList ++ gap.1

def qualifierText (header : SpelledHeader) : List Char :=
  "pub".toList ++ header.afterVisibility.1 ++ guardText header.afterGuard ++
    "extern".toList ++ header.afterLinkage.1 ++ "\"C\"".toList ++ header.afterConvention.1 ++
    "fn".toList ++ header.afterKeyword.1

def text (header : SpelledHeader) : List Char :=
  header.marker.text ++ (header.beforeVisibility.1 ++ header.qualifierText)

theorem qualifierText_mem (header : SpelledHeader) : header.qualifierText ∈ qualifiers := by
  have guarded : guardText header.afterGuard ∈ 1 + literal "unsafe" * gap := by
    cases header.afterGuard with
    | none => exact .inl rfl
    | some gap => exact .inr (Language.append_mem_mul rfl gap.2)
  exact Language.append_mem_mul (Language.append_mem_mul (Language.append_mem_mul
    (Language.append_mem_mul (Language.append_mem_mul (Language.append_mem_mul
      (Language.append_mem_mul (Language.append_mem_mul rfl header.afterVisibility.2) guarded) rfl)
      header.afterLinkage.2) rfl) header.afterConvention.2) rfl) header.afterKeyword.2

theorem declares (header : SpelledHeader) {groups : Groups} (proper : groups.Proper)
    (afterName : Blanks) {tail : List Char} (ended : tail ∈ ending groups.clause) :
    Declares (header.text ++ (groups.name ++ (afterName.1 ++ '(' ::
      (groups.arguments ++ ')' :: tail)))) groups.signature := by
  refine ⟨groups, proper, Groups.mem_declarations.mpr ⟨_, header.marker.text_mem, _,
    Language.append_mem_mul header.beforeVisibility.2 header.qualifierText_mem, _,
    Language.append_mem_mul afterName.2 (rfl : "(".toList ∈ literal "("), tail, ended, ?_⟩, rfl⟩
  simp [text]

end SpelledHeader

structure SpelledDeclaration where
  header : SpelledHeader
  name : List Char
  name_ne_nil : name ≠ []
  word : ∀ c ∈ name, isWordChar c = true
  afterName : Blanks
  parts : List ListPart
  afterParts : Blanks
  returns : Option (SpelledType ['{'])

namespace SpelledDeclaration

def argumentText (spelled : SpelledDeclaration) : List Char :=
  [','].intercalate (spelled.parts.map ListPart.text)

def endingText (spelled : SpelledDeclaration) : List Char :=
  match spelled.returns with
  | none => spelled.afterParts.1 ++ ['{']
  | some type => spelled.afterParts.1 ++ '-' :: '>' :: (type.text ++ ['{'])

def text (spelled : SpelledDeclaration) : List Char :=
  spelled.header.text ++ (spelled.name ++ (spelled.afterName.1 ++ '(' ::
    (spelled.argumentText ++ ')' :: spelled.endingText)))

def signature (spelled : SpelledDeclaration) : Signature :=
  { name := String.ofList spelled.name
    parameters := spelled.parts.filterMap ListPart.parameter?
    returns := (spelled.returns.map SpelledType.type).getD voidType }

def groups (spelled : SpelledDeclaration) : Groups :=
  { name := spelled.name
    arguments := spelled.argumentText
    clause := spelled.returns.map SpelledType.text }

theorem mem_argumentText {spelled : SpelledDeclaration} {c : Char}
    (letter : c ∈ spelled.argumentText) : c = ',' ∨ ∃ part ∈ spelled.parts, c ∈ part.text := by
  rw [argumentText, ← joinWith_eq_intercalate] at letter
  rcases mem_joinWith letter with comma | ⟨_, member, inside⟩
  · exact .inl (List.mem_singleton.mp comma)
  · obtain ⟨part, listed, rfl⟩ := List.mem_map.mp member
    exact .inr ⟨part, listed, inside⟩

theorem proper (spelled : SpelledDeclaration) : spelled.groups.Proper where
  name_ne_nil := spelled.name_ne_nil
  word := spelled.word
  arguments := by
    intro closing
    rcases mem_argumentText closing with comma | ⟨part, -, inside⟩
    · exact absurd comma (by decide)
    · exact part.notMem_text rfl (by decide) inside
  clause := by
    intro clause present
    obtain ⟨type, -, rfl⟩ := Option.map_eq_some_iff.mp present
    refine ⟨?_, type.notMem_text rfl (by decide)⟩
    intro empty
    exact type.not_blank_text (by simp [empty])

theorem signature_groups (spelled : SpelledDeclaration) :
    spelled.groups.signature = spelled.signature := by
  have listed : parameters spelled.argumentText = spelled.parts.filterMap ListPart.parameter? := by
    have clear : ∀ part ∈ spelled.parts.map ListPart.text, ',' ∉ part :=
      List.forall_mem_map.mpr fun part _ => part.notMem_text rfl (by decide)
    rw [argumentText, parameters_intercalate clear, List.filterMap_map]
    exact List.filterMap_congr fun part _ => part.parameter?_text
  have typed : returnType (spelled.returns.map SpelledType.text) =
      (spelled.returns.map SpelledType.type).getD voidType := by
    cases spelled.returns with
    | none => rfl
    | some type =>
      have notBlank : type.text.all isBlank ≠ true := fun blank =>
        type.not_blank_text (List.all_eq_true.mp blank)
      simp only [Option.map_some, returnType, if_neg notBlank, type.normaliseChars_text,
        Option.getD_some]
  simp only [Groups.signature, groups, listed, typed, signature]

theorem ended (spelled : SpelledDeclaration) :
    spelled.endingText ∈ ending spelled.groups.clause := by
  simp only [endingText, groups]
  cases spelled.returns with
  | none => exact mem_ending_none.mpr ⟨_, spelled.afterParts.2, rfl⟩
  | some type =>
    exact mem_ending_some.mpr ⟨_, spelled.afterParts.2, [], nil_mem_blanks, by simp⟩

theorem declares (spelled : SpelledDeclaration) : Declares spelled.text spelled.signature := by
  have declared := spelled.header.declares spelled.proper spelled.afterName spelled.ended
  rwa [signature_groups] at declared

end SpelledDeclaration

/-- Declarations, each with what stands before it, and what stands behind the last one. -/
structure SpelledSource where
  declarations : List ({text : List Char // '#' ∉ text} × SpelledDeclaration)
  remainder : {text : List Char // '#' ∉ text}

namespace SpelledSource

def text (source : SpelledSource) : List Char :=
  source.declarations.flatMap (fun piece => piece.1.1 ++ piece.2.text) ++ source.remainder.1

def signatures (source : SpelledSource) : List Signature :=
  source.declarations.map fun piece => piece.2.signature

end SpelledSource

/-- However the declarations of a source are laid out, their signatures are extracted in order. -/
theorem extract_spelled (source : SpelledSource) : extract source.text = source.signatures := by
  obtain ⟨declarations, remainder⟩ := source
  simp only [SpelledSource.text, SpelledSource.signatures]
  induction declarations with
  | nil =>
    have nothing := extract_of_notMem remainder.2 []
    rwa [List.append_nil, extract_nil] at nothing
  | cons piece others ih =>
    rw [List.flatMap_cons, List.append_assoc, List.append_assoc, extract_of_notMem piece.1.2,
      extract_of_declares piece.2.declares, ih, List.map_cons]

def noBlanks : Blanks := ⟨[], nil_mem_blanks⟩

def oneSpace : Gap := ⟨[' '], by decide⟩

def plainHeader : SpelledHeader :=
  { marker := .plain noBlanks noBlanks
    beforeVisibility := ⟨[' '], by decide⟩
    afterVisibility := oneSpace
    afterGuard := none
    afterLinkage := oneSpace
    afterConvention := oneSpace
    afterKeyword := oneSpace }

def airySource : SpelledSource where
  declarations :=
    [ (⟨"// add\n".toList, by decide⟩,
        { header :=
            { marker := .guarded ⟨[' '], by decide⟩ ⟨['\t'], by decide⟩ ⟨[' '], by decide⟩
                ⟨['\n'], by decide⟩ ⟨['\u3000'], by decide⟩
              beforeVisibility := ⟨['\r', '\n'], by decide⟩
              afterVisibility := oneSpace
              afterGuard := some ⟨['\t', ' '], by decide⟩
              afterLinkage := oneSpace
              afterConvention := oneSpace
              afterKeyword := ⟨['\n'], by decide⟩ }
          name := "add".toList
          name_ne_nil := by decide
          word := by decide
          afterName := ⟨[' '], by decide⟩
          parts :=
            [ .parameter
                { front := ⟨['\n'], by decide⟩
                  name := ⟨"left".toList, by decide, by decide⟩
                  middle := ⟨[' '], by decide⟩
                  type :=
                    { front := ⟨[' '], by decide⟩
                      first := ⟨"*const".toList, by decide, by decide⟩
                      others := [(⟨[' ', ' '], by decide⟩,
                        ⟨"std::ffi::c_int".toList, by decide, by decide⟩)]
                      back := ⟨[' '], by decide⟩ } },
              .blank ⟨['\u00a0'], by decide⟩,
              .parameter
                { front := noBlanks
                  name := ⟨"right".toList, by decide, by decide⟩
                  middle := noBlanks
                  type :=
                    { front := noBlanks
                      first := ⟨"u32".toList, by decide, by decide⟩
                      others := []
                      back := noBlanks } },
              .blank ⟨['\n'], by decide⟩ ]
          afterParts := noBlanks
          returns := some
            { front := ⟨['\n', ' '], by decide⟩
              first := ⟨"Option<".toList, by decide, by decide⟩
              others := [(oneSpace, ⟨"u8".toList, by decide, by decide⟩),
                (⟨['\t'], by decide⟩, ⟨">".toList, by decide, by decide⟩)]
              back := ⟨[' '], by decide⟩ } }),
      (⟨" None \x7d\n".toList, by decide⟩,
        { header := plainHeader
          name := "go".toList
          name_ne_nil := by decide
          word := by decide
          afterName := noBlanks
          parts := []
          afterParts := noBlanks
          returns := none }) ]
  remainder := ⟨"\x7d".toList, by decide⟩

theorem extract_airySource :
    airySource.text = ("// add\n#[ unsafe\t( no_mangle\n)\u3000]\r\npub unsafe\t extern \"C\" fn\nadd (" ++
        "\nleft : *const  std::ffi::c_int ,\u00a0,right:u32,\n)->\n Option< u8\t> \x7b None \x7d\n" ++
        "#[no_mangle] pub extern \"C\" fn go()\x7b\x7d").toList ∧
      extract airySource.text =
        [ { name := "add"
            parameters := [⟨"left", "*const std::ffi::c_int"⟩, ⟨"right", "u32"⟩]
            returns := "Option< u8 >" },
          { name := "go", parameters := [], returns := "void" } ] :=
  ⟨by decide +kernel, (extract_spelled airySource).trans (by decide +kernel)⟩

end FfiBindings.Extraction
