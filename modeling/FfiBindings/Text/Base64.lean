import FfiBindings.Text.Utf8

set_option autoImplicit false

namespace FfiBindings.Text.Base64

def digit? (c : Char) : Option Nat :=
  if 'A' ≤ c && c ≤ 'Z' then some (c.toNat - 0x41)
  else if 'a' ≤ c && c ≤ 'z' then some (c.toNat - 0x61 + 26)
  else if c.isDigit then some (c.toNat - 0x30 + 52)
  else if c == '+' then some 62
  else if c == '/' then some 63
  else none

-- Read on at a place in a group of four, with the bits left over from the character before and the
-- number of paddings met since.
def decodeFrom? (place bits paddings : Nat) : List Char → Option Bytes
  | [] => if place == 0 then some [] else none
  | c :: rest =>
    if c == '=' then
      if 2 ≤ place then
        if 4 ≤ place + paddings + 1 then some [] else decodeFrom? place bits (paddings + 1) rest
      else
        decodeFrom? place bits paddings rest
    else
      match digit? c with
      | none => decodeFrom? place bits paddings rest
      | some digit =>
        match place with
        | 0 => decodeFrom? 1 digit 0 rest
        | 1 => (UInt8.ofNat (bits * 4 + digit / 16) :: ·) <$> decodeFrom? 2 (digit % 16) 0 rest
        | 2 => (UInt8.ofNat (bits * 16 + digit / 4) :: ·) <$> decodeFrom? 3 (digit % 4) 0 rest
        | _ => (UInt8.ofNat (bits * 64 + digit) :: ·) <$> decodeFrom? 0 0 0 rest

def decode? (text : String) : Option Bytes :=
  decodeFrom? 0 0 0 text.toList

end FfiBindings.Text.Base64
