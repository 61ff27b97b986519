import FfiBindings.Index.Text
import FfiBindings.Proofs.Text
import FfiBindings.Text.Alphanumeric

set_option autoImplicit false

namespace FfiBindings

namespace Exports

def isLineEnd (c : Char) : Bool :=
  c == '\n' || c == '\r' || c == '\u2028' || c == '\u2029'

def lines : List Char → List (List Char)
  | [] => [[]]
  | c :: rest =>
    if isLineEnd c then
      [] :: lines rest
    else
      match lines rest with
      | [] => [[c]]
      | line :: others => (c :: line) :: others

inductive Statement where
  | exportAll (path : String)
  | exportName (name path : String)
deriving DecidableEq, Repr

def path? (text : List Char) : Option String :=
  match Text.cutAt '"' text with
  | (path, some [';']) => some (String.ofList path)
  | _ => none

def exportAll? (line : List Char) : Option String :=
  (Text.dropPrefix? "export * from \"".toList line).bind path?

def exportName? (line : List Char) : Option (String × String) := do
  let text ← Text.dropPrefix? "export \x7b ".toList line
  let name := text.takeWhile Text.isWordChar
  if name.isEmpty then
    none
  let text ← Text.dropPrefix? " \x7d from \"".toList (text.dropWhile Text.isWordChar)
  let path ← path? text
  return (String.ofList name, path)

-- What a line says; a line that is neither empty nor a comment nor an export is not understood.
def statements? (line : List Char) : Option (List Statement) :=
  match line with
  | [] | '/' :: '/' :: _ => some []
  | _ =>
    match exportAll? line with
    | some path => some [.exportAll path]
    | none => (exportName? line).map fun found => [.exportName found.1 found.2]

def statementsOfLines? : List (List Char) → Option (List Statement)
  | [] => some []
  | line :: rest => do
    return (← statements? line) ++ (← statementsOfLines? rest)

def read? (text : String) : Option (List Statement) :=
  statementsOfLines? (lines text.toList)

def exportAllPaths (text : String) : List String :=
  (lines text.toList).filterMap exportAll?

def leadingPaths : List (List Char) → List String
  | [] => []
  | line :: rest =>
    match exportAll? line with
    | some path => path :: leadingPaths rest
    | none => []

def OnLine (text : String) : Prop :=
  ∀ c ∈ text.toList, isLineEnd c = false

instance (text : String) : Decidable (OnLine text) :=
  decidable_of_iff (text.toList.all fun c => !isLineEnd c) (by simp [OnLine])

structure Quotable (path : String) : Prop where
  onLine : OnLine path
  unquoted : '"' ∉ path.toList

instance (path : String) : Decidable (Quotable path) :=
  decidable_of_iff (OnLine path ∧ '"' ∉ path.toList)
    ⟨fun ⟨onLine, unquoted⟩ => ⟨onLine, unquoted⟩, fun ⟨onLine, unquoted⟩ => ⟨onLine, unquoted⟩⟩

structure IsWord (name : String) : Prop where
  nonempty : name ≠ ""
  word : ∀ c ∈ name.toList, Text.isWordChar c = true

instance (name : String) : Decidable (IsWord name) :=
  decidable_of_iff (name ≠ "" ∧ name.toList.all Text.isWordChar = true)
    ⟨fun ⟨nonempty, word⟩ => ⟨nonempty, List.all_eq_true.mp word⟩,
      fun ⟨nonempty, word⟩ => ⟨nonempty, List.all_eq_true.mpr word⟩⟩

theorem lines_append_lineFeed {line : List Char} (clear : ∀ c ∈ line, isLineEnd c = false)
    (rest : List Char) : lines (line ++ '\n' :: rest) = line :: lines rest := by
  induction line with
  | nil => rfl
  | cons c others ih =>
    rw [List.forall_mem_cons] at clear
    rw [List.cons_append, lines, ih clear.2]
    simp [clear.1]

theorem lines_textOfLines {front : List String} (clear : ∀ line ∈ front, OnLine line)
    (rest : List Char) :
    lines ((textOfLines front).toList ++ rest) = front.map String.toList ++ lines rest := by
  induction front with
  | nil => simp [textOfLines]
  | cons line others ih =>
    rw [List.forall_mem_cons] at clear
    have split : (textOfLines (line :: others)).toList ++ rest =
        line.toList ++ '\n' :: ((textOfLines others).toList ++ rest) := by
      simp [textOfLines]
    rw [split, lines_append_lineFeed clear.1, ih clear.2]
    rfl

theorem path?_quoted {path : String} (quotable : Quotable path) :
    path? (path.toList ++ ['"', ';']) = some path := by
  have cut : Text.cutAt '"' (path.toList ++ '"' :: [';']) = (path.toList, some [';']) :=
    Text.cutAt_eq_some_iff.mpr ⟨quotable.unquoted, rfl⟩
  simp [path?, cut]

end Exports

open Exports

def exportAllLine (path : String) : String :=
  "export * from \"" ++ path ++ "\";"

theorem exportAll?_line {path : String} (quotable : Quotable path) :
    exportAll? (exportAllLine path).toList = some path := by
  have split : (exportAllLine path).toList =
      "export * from \"".toList ++ (path.toList ++ ['"', ';']) := by
    change ("export * from \"" ++ path ++ "\";").toList = _
    rw [String.toList_append, String.toList_append, List.append_assoc]
    rfl
  simp only [exportAll?, split, Text.dropPrefix?_append, Option.bind_some, path?_quoted quotable]

theorem statements?_exportAllLine {path : String} (quotable : Quotable path) :
    statements? (exportAllLine path).toList = some [.exportAll path] := by
  have read := exportAll?_line quotable
  have begins : ∃ rest, (exportAllLine path).toList = 'e' :: rest := by
    change ∃ rest, ("export * from \"" ++ path ++ "\";").toList = 'e' :: rest
    rw [String.toList_append, String.toList_append, List.append_assoc]
    exact ⟨_, rfl⟩
  obtain ⟨rest, begins⟩ := begins
  rw [begins] at read ⊢
  simp only [statements?, read]
  rfl

theorem statements?_exportLine {collision : ExportIndex.Collision} (word : IsWord collision.name)
    (quotable : Quotable collision.first) :
    statements? collision.exportLine.toList =
      some [.exportName collision.name collision.first] := by
  have shape : collision.exportLine.toList = "export \x7b ".toList ++ (collision.name.toList ++
      (" \x7d from \"".toList ++ (collision.first.toList ++ ['"', ';']))) := by
    simp only [ExportIndex.Collision.exportLine, String.toList_append, List.append_assoc]
    rfl
  have noStar : exportAll? collision.exportLine.toList = none := by
    rw [shape]
    rfl
  have nonempty : collision.name.toList ≠ [] := by
    intro empty
    exact word.nonempty (String.toList_eq_nil_iff.mp empty)
  have read : exportName? collision.exportLine.toList = some (collision.name, collision.first) := by
    have stops : (" \x7d from \"".toList ++ (collision.first.toList ++ ['"', ';'])).takeWhile
        Text.isWordChar = [] := rfl
    have stays : (" \x7d from \"".toList ++ (collision.first.toList ++ ['"', ';'])).dropWhile
        Text.isWordChar = " \x7d from \"".toList ++ (collision.first.toList ++ ['"', ';']) := rfl
    rw [shape, exportName?, Text.dropPrefix?_append]
    simp only [Option.bind_eq_bind, Option.bind_some]
    rw [List.takeWhile_append_of_pos word.word, List.dropWhile_append_of_pos word.word, stops,
      stays, List.append_nil, if_neg (by simpa using nonempty), Text.dropPrefix?_append, Option.bind_some,
      path?_quoted quotable, Option.bind_some, String.ofList_toList]
    rfl
  have begins : ∃ rest, collision.exportLine.toList = 'e' :: rest := ⟨_, shape⟩
  obtain ⟨rest, begins⟩ := begins
  rw [begins] at noStar read ⊢
  simp only [statements?, noStar, read]
  rfl

namespace Exports

theorem statementsOfLines?_map {α : Type} {items : List α} {line : α → String}
    {statement : α → Statement}
    (understood : ∀ item ∈ items, statements? (line item).toList = some [statement item])
    (rest : List (List Char)) :
    statementsOfLines? ((items.map line).map String.toList ++ rest) =
      (statementsOfLines? rest).map (items.map statement ++ ·) := by
  induction items with
  | nil => simp
  | cons item others ih =>
    rw [List.forall_mem_cons] at understood
    simp only [List.map_cons, List.cons_append, statementsOfLines?, understood.1, ih understood.2]
    cases statementsOfLines? rest <;> rfl

end Exports

theorem onLine_append {first second : String} (onLine : OnLine first) (onLine' : OnLine second) :
    OnLine (first ++ second) := by
  intro c letter
  rw [String.toList_append, List.mem_append] at letter
  exact letter.elim (onLine c) (onLine' c)

theorem onLine_exportAllLine {path : String} (quotable : Quotable path) :
    OnLine (exportAllLine path) := by
  refine onLine_append (onLine_append ?_ quotable.onLine) ?_ <;> decide

theorem onLine_exportLine {collision : ExportIndex.Collision} (onLine : OnLine collision.name)
    (quotable : Quotable collision.first) : OnLine collision.exportLine := by
  refine onLine_append (onLine_append (onLine_append (onLine_append ?_ onLine) ?_)
    quotable.onLine) ?_ <;> decide

theorem Exports.IsWord.onLine {name : String} (word : IsWord name) : OnLine name := by
  intro c letter
  rw [Bool.eq_false_iff]
  intro ends
  have blank : Text.isBlank c = true := by
    simp only [isLineEnd, Bool.or_eq_true, beq_iff_eq] at ends
    rcases ends with ((rfl | rfl) | rfl) | rfl <;> rfl
  have := word.word c letter
  rw [Text.notWordChar_of_isBlank blank] at this
  cases this

def indexFront (index : ExportIndex) : List String :=
  "// Generated by rustport. Do not edit." :: index.importPaths.map exportAllLine

def indexBack (index : ExportIndex) : List String :=
  if index.collisions.isEmpty then
    []
  else
    [ "", "// Names exported by more than one module resolve to the first one." ] ++
    index.collisions.map ExportIndex.Collision.exportLine

theorem indexText_split (index : ExportIndex) :
    (indexText index).toList =
      (textOfLines (indexFront index)).toList ++ (textOfLines (indexBack index)).toList := by
  have whole : indexLines index.importPaths index.collisions =
      indexFront index ++ indexBack index := rfl
  simp [indexText, whole, textOfLines]

theorem onLine_indexFront {index : ExportIndex}
    (quotable : ∀ path ∈ index.importPaths, Quotable path) :
    ∀ line ∈ indexFront index, OnLine line := by
  refine List.forall_mem_cons.mpr ⟨by decide, List.forall_mem_map.mpr ?_⟩
  exact fun path member => onLine_exportAllLine (quotable path member)

theorem onLine_indexBack {index : ExportIndex}
    (named : ∀ collision ∈ index.collisions, OnLine collision.name ∧ Quotable collision.first) :
    ∀ line ∈ indexBack index, OnLine line := by
  unfold indexBack
  split
  · simp
  · refine List.forall_mem_append.mpr ⟨by decide, List.forall_mem_map.mpr ?_⟩
    intro collision member
    exact onLine_exportLine (named collision member).1 (named collision member).2

theorem Exports.statementsOfLines?_silent {line : List Char} (silent : statements? line = some [])
    (rest : List (List Char)) :
    statementsOfLines? (line :: rest) = statementsOfLines? rest := by
  rw [statementsOfLines?, silent]
  cases statementsOfLines? rest <;> rfl

theorem statementsOfLines?_indexBack {index : ExportIndex}
    (named : ∀ collision ∈ index.collisions, IsWord collision.name ∧ Quotable collision.first) :
    statementsOfLines? ((indexBack index).map String.toList ++ [[]]) =
      some (index.collisions.map fun collision =>
        .exportName collision.name collision.first) := by
  have explicit := statementsOfLines?_map (fun collision member =>
    statements?_exportLine (named collision member).1 (named collision member).2) [[]]
  have ended : statementsOfLines? [[]] = some [] := rfl
  rw [ended] at explicit
  unfold indexBack
  split
  · next none =>
    rw [List.isEmpty_iff] at none
    simp [none, ended]
  · simp only [List.map_cons, List.cons_append, List.nil_append]
    rw [statementsOfLines?_silent rfl, statementsOfLines?_silent rfl, explicit]
    simp

theorem read?_indexText {index : ExportIndex}
    (quotable : ∀ path ∈ index.importPaths, Quotable path)
    (named : ∀ collision ∈ index.collisions, IsWord collision.name ∧ Quotable collision.first) :
    read? (indexText index) = some (index.importPaths.map .exportAll ++
      index.collisions.map fun collision => .exportName collision.name collision.first) := by
  have back := onLine_indexBack fun collision member =>
    ⟨(named collision member).1.onLine, (named collision member).2⟩
  have stars := statementsOfLines?_map fun path member =>
    statements?_exportAllLine (quotable path member)
  rw [read?, indexText_split, lines_textOfLines (onLine_indexFront quotable),
    ← List.append_nil (textOfLines (indexBack index)).toList, lines_textOfLines back]
  change statementsOfLines? ("// Generated by rustport. Do not edit.".toList ::
    ((index.importPaths.map exportAllLine).map String.toList ++
      ((indexBack index).map String.toList ++ [[]]))) = _
  rw [statementsOfLines?_silent rfl, stars, statementsOfLines?_indexBack named]
  rfl

theorem exportAll?_indexBack (index : ExportIndex) :
    ∀ line ∈ indexBack index, exportAll? line.toList = none := by
  unfold indexBack
  split
  · simp
  · refine List.forall_mem_append.mpr ⟨by decide, List.forall_mem_map.mpr fun collision _ => ?_⟩
    simp only [ExportIndex.Collision.exportLine, String.toList_append, List.append_assoc]
    rfl

theorem filterMap_exportAllLine {paths : List String} (quotable : ∀ path ∈ paths, Quotable path) :
    ((paths.map exportAllLine).map String.toList).filterMap exportAll? = paths := by
  induction paths with
  | nil => rfl
  | cons path rest ih =>
    rw [List.forall_mem_cons] at quotable
    rw [List.map_cons, List.map_cons, List.filterMap_cons_some (exportAll?_line quotable.1),
      ih quotable.2]

theorem leadingPaths_exportAllLine {paths : List String} (quotable : ∀ path ∈ paths, Quotable path)
    {rest : List (List Char)} (ended : leadingPaths rest = []) :
    leadingPaths ((paths.map exportAllLine).map String.toList ++ rest) = paths := by
  induction paths with
  | nil => exact ended
  | cons path others ih =>
    rw [List.forall_mem_cons] at quotable
    simp only [List.map_cons, List.cons_append, leadingPaths, exportAll?_line quotable.1,
      ih quotable.2]

theorem exportAllPaths_indexText {index : ExportIndex}
    (quotable : ∀ path ∈ index.importPaths, Quotable path)
    (named : ∀ collision ∈ index.collisions, OnLine collision.name ∧ Quotable collision.first) :
    exportAllPaths (indexText index) = index.importPaths := by
  have header : exportAll? "// Generated by rustport. Do not edit.".toList = none := rfl
  have back : ((indexBack index).map String.toList).filterMap exportAll? = [] := by
    rw [List.filterMap_map, List.filterMap_eq_nil_iff]
    exact exportAll?_indexBack index
  rw [exportAllPaths, indexText_split, lines_textOfLines (onLine_indexFront quotable),
    ← List.append_nil (textOfLines (indexBack index)).toList,
    lines_textOfLines (onLine_indexBack named), indexFront, List.map_cons, List.filterMap_append,
    List.filterMap_cons_none header, filterMap_exportAllLine quotable, List.filterMap_append, back]
  exact List.append_nil _

theorem leadingPaths_indexText {index : ExportIndex}
    (quotable : ∀ path ∈ index.importPaths, Quotable path) :
    leadingPaths (lines (indexText index).toList).tail = index.importPaths := by
  have ended : leadingPaths (lines (textOfLines (indexBack index)).toList) = [] := by
    unfold indexBack
    split
    · rfl
    · rw [List.cons_append]
      have begins : ∀ others, (textOfLines ("" :: others)).toList =
          '\n' :: (textOfLines others).toList := fun others => by simp [textOfLines]
      rw [begins]
      rfl
  rw [indexText_split, lines_textOfLines (onLine_indexFront quotable), indexFront, List.map_cons,
    List.cons_append, List.tail_cons]
  exact leadingPaths_exportAllLine quotable ended

end FfiBindings
