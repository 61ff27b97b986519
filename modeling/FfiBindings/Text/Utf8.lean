-- A malformed stretch is a maximal subpart: the longest beginning of a sequence that could still
-- have been continued, or a single byte that begins none.

set_option autoImplicit false

namespace FfiBindings.Text

abbrev Bytes := List UInt8

namespace Utf8

inductive Defect where
  | startByte
  | continuation
  | truncated
deriving DecidableEq, Repr

def Defect.message : Defect → String
  | .startByte => "invalid start byte"
  | .continuation => "invalid continuation byte"
  | .truncated => "unexpected end of data"

-- One step of reading: a character, or a malformed stretch of `length` bytes.
inductive Piece where
  | char (c : Char)
  | malformed (length : Nat) (defect : Defect)
deriving DecidableEq, Repr

def isContinuation (byte : UInt8) : Bool :=
  0x80 ≤ byte && byte ≤ 0xBF

-- The number of continuation bytes that a first byte asks for, the bounds of the second byte, and
-- the value that the first byte contributes.
def lead? (byte : UInt8) : Option (Nat × UInt8 × UInt8 × Nat) :=
  if 0xC2 ≤ byte && byte ≤ 0xDF then some (1, 0x80, 0xBF, byte.toNat - 0xC0)
  else if byte == 0xE0 then some (2, 0xA0, 0xBF, 0)
  else if byte == 0xED then some (2, 0x80, 0x9F, 0xD)
  else if 0xE1 ≤ byte && byte ≤ 0xEF then some (2, 0x80, 0xBF, byte.toNat - 0xE0)
  else if byte == 0xF0 then some (3, 0x90, 0xBF, 0)
  else if 0xF1 ≤ byte && byte ≤ 0xF3 then some (3, 0x80, 0xBF, byte.toNat - 0xF0)
  else if byte == 0xF4 then some (3, 0x80, 0x8F, 4)
  else none

def continueWith (value length : Nat) : Nat → Bytes → Piece × Nat
  | 0, _ => (.char (Char.ofNat value), length)
  | _ + 1, [] => (.malformed length .truncated, length)
  | missing + 1, byte :: rest =>
    if isContinuation byte then
      continueWith (value * 64 + (byte.toNat - 0x80)) (length + 1) missing rest
    else
      (.malformed length .continuation, length)

def piece (first : UInt8) (rest : Bytes) : Piece × Nat :=
  if first < 0x80 then
    (.char (Char.ofNat first.toNat), 1)
  else
    match lead? first with
    | none => (.malformed 1 .startByte, 1)
    | some (missing, low, high, value) =>
      match rest with
      | [] => (.malformed 1 .truncated, 1)
      | second :: others =>
        if low ≤ second && second ≤ high then
          continueWith (value * 64 + (second.toNat - 0x80)) 2 (missing - 1) others
        else
          (.malformed 1 .continuation, 1)

def pieces (offset : Nat) : Bytes → List (Nat × Piece)
  | [] => []
  | first :: rest =>
    let found := piece first rest
    (offset, found.1) :: pieces (offset + found.2) (rest.drop (found.2 - 1))
termination_by bytes => bytes.length
decreasing_by
  simp only [List.length_drop, List.length_cons]
  omega

def replacement : Char := Char.ofNat 0xFFFD

def decodeLossy (bytes : Bytes) : List Char :=
  (pieces 0 bytes).map fun
    | (_, .char c) => c
    | (_, .malformed _ _) => replacement

structure Failure where
  offset : Nat
  length : Nat
  byte : UInt8
  defect : Defect
deriving DecidableEq, Repr

def hexDigits (value : Nat) : String :=
  let digits := String.ofList (Nat.toDigits 16 value)
  if digits.length < 2 then "0" ++ digits else digits

def Failure.message (failure : Failure) : String :=
  let place :=
    if failure.length == 1 then
      s!"byte 0x{hexDigits failure.byte.toNat} in position {failure.offset}"
    else
      s!"bytes in position {failure.offset}-{failure.offset + failure.length - 1}"
  s!"'utf-8' codec can't decode {place}: {failure.defect.message}"

def readPieces (bytes : Bytes) : List (Nat × Piece) → Except Failure (List Char)
  | [] => .ok []
  | (_, .char c) :: rest => (c :: ·) <$> readPieces bytes rest
  | (offset, .malformed length defect) :: _ =>
    .error { offset, length, byte := bytes.getD offset 0, defect }

def decode? (bytes : Bytes) : Except Failure (List Char) :=
  readPieces bytes (pieces 0 bytes)

def encode (text : List Char) : Bytes :=
  text.flatMap String.utf8EncodeChar

end Utf8

def utf8 (text : String) : Bytes :=
  Utf8.encode text.toList

end FfiBindings.Text
