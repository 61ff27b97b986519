import FfiBindings.Extraction.Parameters
import FfiBindings.Text.Alphanumeric

-- Where a declaration starts it is taken and reading goes on behind its brace, elsewhere one
-- character is skipped. Comments and nested parentheses are not known to the reader.

set_option autoImplicit false

namespace FfiBindings.Extraction

open Text

def expect (word : String) (text : List Char) : Option (List Char) :=
  dropPrefix? word.toList text

def expectAfterBlanks (word : String) (text : List Char) : Option (List Char) :=
  expect word (dropBlank text)

def skipBlanks? : List Char → Option (List Char)
  | c :: rest => if isBlank c then some (dropBlank rest) else none
  | [] => none

def attributeWord? (text : List Char) : Option (List Char) :=
  match expect "no_mangle" text with
  | some rest => some rest
  | none => do
    let text ← expect "unsafe" text
    let text ← expectAfterBlanks "(" text
    let text ← expectAfterBlanks "no_mangle" text
    expectAfterBlanks ")" text

def marker? (text : List Char) : Option (List Char) := do
  let text ← expect "#[" text
  let text ← attributeWord? (dropBlank text)
  expectAfterBlanks "]" text

def keyword? (word : String) (text : List Char) : Option (List Char) :=
  (expect word text).bind skipBlanks?

def qualifiers? (text : List Char) : Option (List Char) := do
  let text ← keyword? "pub" (dropBlank text)
  let text := (keyword? "unsafe" text).getD text
  let text ← keyword? "extern" text
  let text ← keyword? "\"C\"" text
  keyword? "fn" text

def name? (text : List Char) : Option (List Char × List Char) :=
  let name := text.takeWhile isWordChar
  if name.isEmpty then none else some (name, text.dropWhile isWordChar)

def returns? (text : List Char) : Option (List Char × List Char) :=
  match expectAfterBlanks "->" text with
  | some rest =>
    -- An arrow with nothing before the brace is no return type, and a blank one is void.
    match cutAt '{' rest with
    | (_ :: _, none) | ([], _) => none
    | (clause, some body) => some (clause, body)
  | none => (expectAfterBlanks "\x7b" text).map fun body => ([], body)

def declaration? (text : List Char) : Option (Signature × List Char) := do
  let text ← marker? text
  let text ← qualifiers? text
  let (name, text) ← name? text
  let text ← expectAfterBlanks "(" text
  let (arguments, closed) := cutAt ')' text
  let text ← closed
  let (clause, text) ← returns? text
  let returns := normaliseChars clause
  let signature :=
    { name := String.ofList name
      parameters := parameters arguments
      returns := if returns.isEmpty then voidType else String.ofList returns }
  return (signature, text)

theorem expect_length_le {word : String} {text rest : List Char}
    (found : expect word text = some rest) : rest.length ≤ text.length := by
  have := dropPrefix?_length found
  omega

theorem expectAfterBlanks_length_le {word : String} {text rest : List Char}
    (found : expectAfterBlanks word text = some rest) : rest.length ≤ text.length :=
  Nat.le_trans (expect_length_le found) (dropBlank_length_le text)

theorem skipBlanks?_length_le {text rest : List Char}
    (found : skipBlanks? text = some rest) : rest.length ≤ text.length := by
  cases text with
  | nil => simp [skipBlanks?] at found
  | cons c tail =>
    simp only [skipBlanks?] at found
    split at found
    · cases found
      exact Nat.le_succ_of_le (dropBlank_length_le tail)
    · simp at found

theorem returns?_length_le {text clause rest : List Char}
    (found : returns? text = some (clause, rest)) : rest.length ≤ text.length := by
  unfold returns? at found
  split at found
  · next arrow =>
    have := expectAfterBlanks_length_le arrow
    split at found
    · simp at found
    · simp at found
    · next cut =>
      cases found
      exact Nat.le_trans (cutAt_length_le cut) this
  · simp only [Option.map_eq_some_iff, Prod.mk.injEq] at found
    obtain ⟨body, brace, _, rfl⟩ := found
    exact expectAfterBlanks_length_le brace

theorem attributeWord?_length_le {text rest : List Char}
    (found : attributeWord? text = some rest) : rest.length ≤ text.length := by
  unfold attributeWord? at found
  split at found
  · next plain =>
    cases found
    exact expect_length_le plain
  · simp only [Option.bind_eq_bind, Option.bind_eq_some_iff] at found
    obtain ⟨_, word, _, opening, _, inner, closing⟩ := found
    have := expect_length_le word
    have := expectAfterBlanks_length_le opening
    have := expectAfterBlanks_length_le inner
    have := expectAfterBlanks_length_le closing
    omega

theorem marker?_length_lt {text rest : List Char}
    (found : marker? text = some rest) : rest.length < text.length := by
  simp only [marker?, Option.bind_eq_bind, Option.bind_eq_some_iff] at found
  obtain ⟨afterHash, hash, afterWord, word, closing⟩ := found
  have hashLength := dropPrefix?_length hash
  have : ("#[".toList).length = 2 := by decide
  have := dropBlank_length_le afterHash
  have := attributeWord?_length_le word
  have := expectAfterBlanks_length_le closing
  omega

theorem keyword?_length_le {word : String} {text rest : List Char}
    (found : keyword? word text = some rest) : rest.length ≤ text.length := by
  obtain ⟨_, matched, skipped⟩ := Option.bind_eq_some_iff.1 found
  exact Nat.le_trans (skipBlanks?_length_le skipped) (expect_length_le matched)

theorem keyword?_getD_length_le (word : String) (text : List Char) :
    ((keyword? word text).getD text).length ≤ text.length := by
  cases found : keyword? word text with
  | none => simp
  | some rest => simpa using keyword?_length_le found

theorem qualifiers?_length_le {text rest : List Char}
    (found : qualifiers? text = some rest) : rest.length ≤ text.length := by
  simp only [qualifiers?, Option.bind_eq_bind, Option.bind_eq_some_iff] at found
  obtain ⟨afterPub, visible, _, external, _, abi, function⟩ := found
  have := dropBlank_length_le text
  have := keyword?_length_le visible
  have := keyword?_getD_length_le "unsafe" afterPub
  have := keyword?_length_le external
  have := keyword?_length_le abi
  have := keyword?_length_le function
  omega

theorem name?_length_le {text name rest : List Char}
    (found : name? text = some (name, rest)) : rest.length ≤ text.length := by
  simp only [name?] at found
  split at found
  · simp at found
  · cases found
    exact (List.dropWhile_suffix isWordChar).length_le

theorem declaration?_length_lt {text rest : List Char} {signature : Signature}
    (found : declaration? text = some (signature, rest)) : rest.length < text.length := by
  simp only [declaration?, Option.bind_eq_bind, Option.bind_eq_some_iff, Prod.exists,
    Option.pure_def, Option.some.injEq, Prod.mk.injEq] at found
  obtain ⟨_, marker, _, qualifiers, _, _, name, _, opening, _, closing, _, _, returns, _, rfl⟩ :=
    found
  have := marker?_length_lt marker
  have := qualifiers?_length_le qualifiers
  have := name?_length_le name
  have := expectAfterBlanks_length_le opening
  have := cutAt_length_le (Prod.ext rfl closing)
  have := returns?_length_le returns
  omega

def extract : List Char → List Signature
  | [] => []
  | c :: rest =>
    match _found : declaration? (c :: rest) with
    | some (signature, remaining) => signature :: extract remaining
    | none => extract rest
termination_by text => text.length
decreasing_by
  · exact declaration?_length_lt (by assumption)
  · simp

end FfiBindings.Extraction
