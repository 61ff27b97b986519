import FfiBindings.Text.Split

set_option autoImplicit false

namespace FfiBindings.Text

-- White space of every script: the ASCII controls 9–13 and 28–31, the space, and the separators
-- beyond ASCII.
def isBlank (c : Char) : Bool :=
  let code := c.toNat
  (9 ≤ code && code ≤ 13) || (28 ≤ code && code ≤ 32) || code == 0x85 || code == 0xA0 ||
    code == 0x1680 || (0x2000 ≤ code && code ≤ 0x200A) || code == 0x2028 || code == 0x2029 ||
    code == 0x202F || code == 0x205F || code == 0x3000

def words : List Char → List (List Char)
  | [] => []
  | c :: rest =>
    if isBlank c then
      words rest
    else
      match rest, words rest with
      | next :: _, word :: others =>
        if isBlank next then [c] :: word :: others else (c :: word) :: others
      | _, others => [c] :: others

def dropBlank (text : List Char) : List Char :=
  text.dropWhile isBlank

theorem dropBlank_length_le (text : List Char) : (dropBlank text).length ≤ text.length :=
  (List.dropWhile_suffix isBlank).length_le

def trimChars (text : List Char) : List Char :=
  (dropBlank (dropBlank text).reverse).reverse

def trim (text : String) : String :=
  String.ofList (trimChars text.toList)

def normaliseChars (text : List Char) : List Char :=
  joinWith [' '] (words text)

def normalise (text : String) : String :=
  String.ofList (normaliseChars text.toList)

end FfiBindings.Text
