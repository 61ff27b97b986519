set_option autoImplicit false

namespace FfiBindings.Text

-- Split at every occurrence of a character; `n` occurrences give `n + 1` parts.
def splitAt (separator : Char) : List Char → List (List Char)
  | [] => [[]]
  | c :: rest =>
    if c == separator then
      [] :: splitAt separator rest
    else
      match splitAt separator rest with
      | [] => [[c]]
      | part :: others => (c :: part) :: others

def joinWith (separator : List Char) : List (List Char) → List Char
  | [] => []
  | [piece] => piece
  | piece :: next :: rest => piece ++ separator ++ joinWith separator (next :: rest)

def dropPrefix? : List Char → List Char → Option (List Char)
  | [], text => some text
  | _ :: _, [] => none
  | expected :: others, c :: rest => if c == expected then dropPrefix? others rest else none

def cutAt (separator : Char) : List Char → List Char × Option (List Char)
  | [] => ([], none)
  | c :: rest =>
    if c == separator then
      ([], some rest)
    else
      let cut := cutAt separator rest
      (c :: cut.1, cut.2)

theorem dropPrefix?_length {expected text rest : List Char}
    (found : dropPrefix? expected text = some rest) :
    text.length = expected.length + rest.length := by
  induction expected generalizing text with
  | nil => simp_all [dropPrefix?]
  | cons head others ih =>
    cases text with
    | nil => simp [dropPrefix?] at found
    | cons c tail =>
      simp only [dropPrefix?] at found
      split at found
      · simp only [List.length_cons, ih found]
        omega
      · simp at found

theorem cutAt_length_le {separator : Char} {text before rest : List Char}
    (found : cutAt separator text = (before, some rest)) : rest.length ≤ text.length := by
  induction text generalizing before with
  | nil => simp [cutAt] at found
  | cons c tail ih =>
    simp only [cutAt] at found
    split at found
    · cases found
      simp
    · simp only [Prod.mk.injEq] at found
      have rest_le : rest.length ≤ tail.length :=
        ih (Prod.ext rfl found.2)
      simp only [List.length_cons]
      omega

end FfiBindings.Text
