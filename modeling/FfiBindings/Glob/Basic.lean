set_option autoImplicit false

namespace FfiBindings.Glob

structure CharClass where
  negated : Bool
  members : List Char
  ranges : List (Char × Char)
deriving DecidableEq, Repr

def CharClass.contains (set : CharClass) (c : Char) : Bool :=
  let listed := set.members.contains c || set.ranges.any fun (low, high) => low ≤ c && c ≤ high
  listed != set.negated

inductive Piece where
  | star
  | one (allowed : CharClass)
  | char (c : Char)
deriving DecidableEq, Repr

def Piece.any : Piece := .one { negated := true, members := [], ranges := [] }

-- Cut the inside of brackets at the hyphens that make ranges. A hyphen does so only behind the
-- first character, and behind the end of the range before it.
def chunksFrom (skip : Nat) (inside : List Char) : Nat → List (List Char)
  | 0 => [inside]
  | fuel + 1 =>
    let behind := inside.drop skip
    let ahead := behind.takeWhile (· != '-')
    if ahead.length < behind.length then
      let cut := min skip inside.length + ahead.length
      inside.take cut :: chunksFrom 2 (inside.drop (cut + 1)) fuel
    else
      [inside]

def closeLast : List (List Char) → List (List Char)
  | [chunk, []] => [chunk ++ ['-']]
  | chunk :: rest => chunk :: closeLast rest
  | [] => []

-- Neighbouring chunks are joined by a range; one that runs backwards is dropped with its ends.
def dropBackward : List (List Char) → List (List Char)
  | [] => []
  | chunk :: rest =>
    match dropBackward rest with
    | [] => [chunk]
    | next :: others =>
      match chunk.getLast?, next with
      | some low, high :: behind =>
        if high < low then (chunk.dropLast ++ behind) :: others else chunk :: next :: others
      | _, _ => chunk :: next :: others

def rangesOf : List (List Char) → List (Char × Char)
  | chunk :: next :: rest =>
    match chunk.getLast?, next.head? with
    | some low, some high => (low, high) :: rangesOf (next :: rest)
    | _, _ => rangesOf (next :: rest)
  | _ => []

def classOf (inside : List Char) : CharClass :=
  -- The first member cannot be the hyphen of a range.
  let skip := if inside.head? == some '!' then 2 else 1
  let chunks := dropBackward (closeLast (chunksFrom skip inside inside.length))
  match chunks with
  | ('!' :: first) :: rest =>
    { negated := true, members := first ++ rest.flatten, ranges := rangesOf (first :: rest) }
  | chunks => { negated := false, members := chunks.flatten, ranges := rangesOf chunks }

-- The inside of brackets and what follows them, if they are closed. A closing bracket in the first
-- place, also behind `!`, belongs to the inside.
def bracket? (text : List Char) : Option (List Char × List Char) :=
  let (mark, rest) := match text with
    | '!' :: rest => (['!'], rest)
    | rest => ([], rest)
  let (first, rest) := match rest with
    | ']' :: rest => ([']'], rest)
    | rest => ([], rest)
  match rest.dropWhile (· != ']') with
  | [] => none
  | _ :: after => some (mark ++ first ++ rest.takeWhile (· != ']'), after)

def piecesFrom : Nat → List Char → List Piece
  | 0, _ => []
  | _, [] => []
  | fuel + 1, c :: rest =>
    if c == '*' then .star :: piecesFrom fuel rest
    else if c == '?' then .any :: piecesFrom fuel rest
    else if c == '[' then
      match bracket? rest with
      | some (inside, after) => .one (classOf inside) :: piecesFrom fuel after
      | none => .char c :: piecesFrom fuel rest
    else .char c :: piecesFrom fuel rest

def pieces (pattern : List Char) : List Piece :=
  piecesFrom pattern.length pattern

def someEnd (rest : List Char → Bool) : List Char → Bool
  | [] => rest []
  | c :: text => rest (c :: text) || someEnd rest text

def matchesPieces : List Piece → List Char → Bool
  | [], text => text.isEmpty
  | .star :: rest, text => someEnd (matchesPieces rest) text
  | .one allowed :: rest, text =>
    match text with
    | c :: text => allowed.contains c && matchesPieces rest text
    | [] => false
  | .char expected :: rest, text =>
    match text with
    | c :: text => c == expected && matchesPieces rest text
    | [] => false

def isMatch (pattern text : List Char) : Bool :=
  matchesPieces (pieces pattern) text

end FfiBindings.Glob
