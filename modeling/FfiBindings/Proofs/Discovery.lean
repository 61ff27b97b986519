import FfiBindings.Proofs.Discovery.Walk
import FfiBindings.Proofs.Path

set_option autoImplicit false

namespace FfiBindings

def Tree.Named (tree : Tree) : Prop :=
  ∀ entry ∈ tree.entries, ∀ part ∈ entry.1, IsName part

instance (tree : Tree) : Decidable tree.Named :=
  inferInstanceAs (Decidable (∀ entry ∈ tree.entries, ∀ part ∈ entry.1, IsName part))

theorem Tree.Named.of_isFileAt {tree : Tree} (named : tree.Named) {start : Location}
    {below : List String} (isFile : Discovery.isFileAt tree (start ++ below) = true) :
    ∀ part ∈ below, IsName part := by
  intro part member
  obtain ⟨entry, held, -⟩ := Discovery.isFileAt_iff.mp isFile
  have nonempty : start ++ below ≠ [] :=
    List.append_ne_nil_of_right_ne_nil _ (List.ne_nil_of_mem member)
  exact named _ (Tree.mem_entries_of_found nonempty held) part (List.mem_append_right _ member)

/-- Directories and a stem, joined by slashes. -/
def IsModuleName (moduleName : String) : Prop :=
  ∃ directories stem, (∀ part ∈ directories, IsName part) ∧ '/' ∉ stem.toList ∧
    moduleName = "/".intercalate (directories ++ [stem])

def IsExtension (extension : String) : Prop :=
  '/' ∉ extension.toList ∧ ∃ c ∈ extension.toList, c ≠ '.'

theorem IsExtension.isName {extension stem : String} (proper : IsExtension extension)
    (clear : '/' ∉ stem.toList) : IsName (stem ++ extension) := by
  obtain ⟨noSlash, c, inside, notPoint⟩ := proper
  have letter : c ∈ (stem ++ extension).toList := by simp [inside]
  have differs : ∀ text : String, (∀ d ∈ text.toList, d = '.') → stem ++ extension ≠ text := by
    intro text points same
    exact notPoint (points c (same ▸ letter))
  refine ⟨⟨differs "" (by simp), differs "." (by simp), ?_⟩, differs ".." (by simp)⟩
  simp [clear, noSlash]

theorem isExtension_moduleSuffix : IsExtension ".ts" :=
  ⟨by decide, 't', by decide, by decide⟩

theorem intercalate_concat_append (separator : String) (parts : List String) (last more : String) :
    separator.intercalate (parts ++ [last]) ++ more =
      separator.intercalate (parts ++ [last ++ more]) := by
  induction parts with
  | nil => simp
  | cons part rest ih =>
    rw [List.cons_append, List.cons_append, String.intercalate_cons_of_ne_nil (by simp),
      String.intercalate_cons_of_ne_nil (by simp), String.append_assoc, ih]

theorem IsModuleName.exists_names {moduleName : String} (named : IsModuleName moduleName) :
    ∃ directories stem, moduleName = "/".intercalate (directories ++ [stem]) ∧
      ∀ {extension : String}, IsExtension extension →
        (∀ part ∈ directories ++ [stem ++ extension], IsName part) ∧
          Path.ofString (moduleName ++ extension) =
            { anchor := .here, parts := directories ++ [stem ++ extension] } := by
  obtain ⟨directories, stem, names, clear, rfl⟩ := named
  refine ⟨directories, stem, rfl, @fun extension proper => ?_⟩
  have all : ∀ part ∈ directories ++ [stem ++ extension], IsName part := by
    intro part member
    rcases List.mem_append.mp member with inside | last
    · exact names part inside
    · rw [List.mem_singleton.mp last]
      exact proper.isName clear
  refine ⟨all, ?_⟩
  rw [intercalate_concat_append]
  exact Path.ofString_intercalate fun part member => (all part member).1

theorem dropSourceSuffix?_eq_some {text moduleName : String}
    (found : dropSourceSuffix? text = some moduleName) : text = moduleName ++ sourceSuffix := by
  simp only [dropSourceSuffix?, Option.map_eq_some_iff] at found
  obtain ⟨rest, dropped, rfl⟩ := found
  have reversed := congrArg List.reverse (Text.dropPrefix?_eq_some dropped)
  apply String.toList_inj.mp
  simpa using reversed

theorem dropSourceSuffix?_append (moduleName : String) :
    dropSourceSuffix? (moduleName ++ sourceSuffix) = some moduleName := by
  rw [dropSourceSuffix?, String.toList_append, List.reverse_append, Text.dropPrefix?_append]
  simp

theorem isModuleName_of_suffix {parts : List String} {moduleName : String}
    (names : ∀ part ∈ parts, IsName part) (nonempty : parts ≠ [])
    (suffixed : "/".intercalate parts = moduleName ++ sourceSuffix) : IsModuleName moduleName := by
  obtain ⟨directories, last, rfl⟩ : ∃ directories last, parts = directories ++ [last] :=
    ⟨parts.dropLast, parts.getLast nonempty, (List.dropLast_concat_getLast nonempty).symm⟩
  have inner : ∀ part ∈ directories, IsName part :=
    fun part member => names part (List.mem_append_left _ member)
  have lastClear : '/' ∉ last.toList := (names last (by simp)).1.2.2
  -- The text in front of the last name is empty or ends in a slash.
  have front := intercalate_concat_append "/" directories "" last
  rw [String.empty_append, suffixed] at front
  have letters := congrArg String.toList front
  rw [String.toList_append, String.toList_append] at letters
  rcases List.append_eq_append_iff.mp letters with ⟨stem, begins, ends⟩ | ⟨more, begins, ends⟩
  · refine ⟨directories, String.ofList stem, inner, ?_, ?_⟩
    · intro slash
      rw [String.toList_ofList] at slash
      exact lastClear (ends ▸ List.mem_append_left _ slash)
    · rw [← String.empty_append (s := String.ofList stem), ← intercalate_concat_append]
      apply String.toList_inj.mp
      simpa using begins
  · -- The suffix holds no slash, so it cannot begin in front of the last name.
    have noRest : more = [] := by
      cases directories with
      | nil =>
        have empty : moduleName.toList ++ more = [] := by simpa using begins.symm
        exact (List.append_eq_nil_iff.mp empty).2
      | cons first others =>
        rw [String.intercalate_append_of_ne_nil (by simp) (by simp)] at begins
        rcases List.eq_nil_or_concat more with empty | ⟨front, c, rfl⟩
        · exact empty
        · have slash : c = '/' := by
            have tail := congrArg List.getLast? begins
            simpa [List.concat_eq_append] using tail.symm
          have inSuffix : '/' ∈ sourceSuffix.toList := by
            rw [ends, slash]
            simp
          exact absurd inSuffix (by decide)
    refine ⟨directories, "", inner, by simp, ?_⟩
    apply String.toList_inj.mp
    simp [begins, noRest]

theorem source?_eq_some_iff {exclude : List String} {sourceDir : Path} {parts : List String}
    {source : SourceFile} : Discovery.source? exclude sourceDir parts = some source ↔
      source.path = { sourceDir with parts := sourceDir.parts ++ parts } ∧
        source.relativePath = "/".intercalate parts ∧
        source.relativePath = source.moduleName ++ sourceSuffix ∧
        Glob.isExcluded exclude source.relativePath false = false := by
  constructor
  · intro taken
    unfold Discovery.source? at taken
    simp only at taken
    split at taken
    · cases taken
    · next moduleName dropped =>
      split at taken
      · cases taken
      · next kept =>
        cases taken
        exact ⟨rfl, rfl, dropSourceSuffix?_eq_some dropped, by simpa using kept⟩
  · obtain ⟨path, relativePath, moduleName⟩ := source
    rintro ⟨rfl, rfl, suffixed, kept⟩
    simp only at suffixed kept
    simp only [Discovery.source?, suffixed, dropSourceSuffix?_append]
    rw [← suffixed, kept]
    simp

theorem source?_eq_some {exclude : List String} {sourceDir : Path} {parts : List String}
    {source : SourceFile} (taken : Discovery.source? exclude sourceDir parts = some source) :
    source.path = { sourceDir with parts := sourceDir.parts ++ parts } ∧
      source.relativePath = "/".intercalate parts ∧
      source.relativePath = source.moduleName ++ sourceSuffix := by
  obtain ⟨path, relative, suffixed, -⟩ := source?_eq_some_iff.mp taken
  exact ⟨path, relative, suffixed⟩

open Discovery in
theorem mem_discover_iff {tree : Tree} {sourceDir : Path} {exclude : List String}
    {source : SourceFile} : source ∈ discover tree sourceDir exclude ↔
    ∃ start below, tree.locate [] true sourceDir = .ok start ∧
      isFileAt tree (start ++ below) = true ∧ below ≠ [] ∧
      (∀ upper, upper <+: below → upper ≠ [] → upper ≠ below →
        Entered tree exclude start upper) ∧
      source? exclude sourceDir below = some source := by
  rw [discover]
  cases located : tree.locate [] true sourceDir with
  | error defect => simp
  | ok start =>
    simp only [List.mem_mergeSort, unsorted, List.mem_filterMap, mem_filesBelow_nil]
    constructor
    · rintro ⟨below, ⟨isFile, nonempty, -, entered⟩, taken⟩
      exact ⟨start, below, rfl, isFile, nonempty, entered, taken⟩
    · rintro ⟨_, below, ⟨⟩, isFile, nonempty, entered, taken⟩
      -- The walk is as deep as the tree is high, so it is not cut short above the file.
      obtain ⟨entry, held, -⟩ := isFileAt_iff.mp isFile
      have bounded := Tree.length_le_height held
      rw [List.length_append] at bounded
      exact ⟨below, ⟨isFile, nonempty, by omega, entered⟩, taken⟩

theorem taken_of_mem_discover {tree : Tree} {sourceDir : Path} {exclude : List String}
    {source : SourceFile} (member : source ∈ discover tree sourceDir exclude) :
    ∃ (start location : Location) (entry : Entry), tree.locate [] true sourceDir = .ok start ∧
      (location, entry) ∈ tree.entries ∧ start.strictlyCovers location = true ∧
      Discovery.isFileEntry tree location entry = true ∧
      Discovery.source? exclude sourceDir (location.drop start.length) = some source := by
  obtain ⟨start, below, located, isFile, nonempty, -, taken⟩ := mem_discover_iff.mp member
  obtain ⟨entry, held, isFile⟩ := Discovery.isFileAt_iff.mp isFile
  have inside : start.strictlyCovers (start ++ below) = true :=
    Location.strictlyCovers_iff.mpr ⟨List.prefix_append _ _, by simpa using Ne.symm nonempty⟩
  refine ⟨start, start ++ below, entry, located, ?_, inside, isFile, by rwa [List.drop_left]⟩
  exact Tree.mem_entries_of_found (by simp [nonempty]) held

theorem mem_discover {tree : Tree} {sourceDir : Path} {exclude : List String} {source : SourceFile}
    (member : source ∈ discover tree sourceDir exclude) :
    ∃ (start location : Location) (entry : Entry), (location, entry) ∈ tree.entries ∧
      start.strictlyCovers location = true ∧
      source.relativePath = "/".intercalate (location.drop start.length) ∧
      source.relativePath = source.moduleName ++ sourceSuffix := by
  obtain ⟨start, location, entry, -, listed, inside, -, taken⟩ := taken_of_mem_discover member
  exact ⟨start, location, entry, listed, inside, (source?_eq_some taken).2⟩

theorem path_of_mem_discover {tree : Tree} (named : tree.Named) {sourceDir : Path}
    {exclude : List String} {source : SourceFile}
    (member : source ∈ discover tree sourceDir exclude) :
    ∃ below, ".." ∉ below ∧ source.path = { sourceDir with parts := sourceDir.parts ++ below } := by
  obtain ⟨start, location, entry, -, listed, -, -, taken⟩ := taken_of_mem_discover member
  refine ⟨location.drop start.length, fun up => ?_, (source?_eq_some taken).1⟩
  exact (named _ listed _ (List.mem_of_mem_drop up)).2 rfl

theorem isModuleName_of_mem_discover {tree : Tree} (named : tree.Named) {sourceDir : Path}
    {exclude : List String} {source : SourceFile}
    (member : source ∈ discover tree sourceDir exclude) : IsModuleName source.moduleName := by
  obtain ⟨start, location, entry, listed, inside, path, suffixed⟩ := mem_discover member
  refine isModuleName_of_suffix ?_ ?_ (path.symm.trans suffixed)
  · exact fun part below => named _ listed part (List.mem_of_mem_drop below)
  · intro empty
    obtain ⟨⟨below, rfl⟩, further⟩ := Location.strictlyCovers_iff.mp inside
    rw [List.drop_left] at empty
    simp [empty] at further

theorem discover_sorted (tree : Tree) (sourceDir : Path) (exclude : List String) :
    ((discover tree sourceDir exclude).map (·.relativePath)).Pairwise (· ≤ ·) := by
  rw [List.pairwise_map]
  unfold discover
  split
  · exact .nil
  · next start located =>
    have trans : ∀ first second third : SourceFile,
        decide (first.relativePath ≤ second.relativePath) = true →
        decide (second.relativePath ≤ third.relativePath) = true →
        decide (first.relativePath ≤ third.relativePath) = true := by
      simpa using fun _ _ _ => String.le_trans
    have total : ∀ first second : SourceFile,
        (decide (first.relativePath ≤ second.relativePath) ||
          decide (second.relativePath ≤ first.relativePath)) = true := by
      simpa using fun _ _ => String.le_total _ _
    simpa using List.pairwise_mergeSort trans total
      (Discovery.unsorted tree start sourceDir exclude)

theorem isExtension_sourceSuffix : IsExtension sourceSuffix :=
  ⟨by decide, 'r', by decide, by decide⟩

theorem intercalate_inj {parts others : List String} (names : ∀ part ∈ parts, IsName part)
    (otherNames : ∀ part ∈ others, IsName part)
    (same : "/".intercalate parts = "/".intercalate others) : parts = others := by
  have read := congrArg Path.ofString same
  rw [Path.ofString_intercalate fun part member => (names part member).1,
    Path.ofString_intercalate fun part member => (otherNames part member).1] at read
  exact congrArg Path.parts read

theorem exists_stem {parts : List String} {moduleName : String}
    (names : ∀ part ∈ parts, IsName part) (nonempty : parts ≠ [])
    (suffixed : "/".intercalate parts = moduleName ++ sourceSuffix) :
    ∃ directories stem, (∀ part ∈ directories, IsName part) ∧ '/' ∉ stem.toList ∧
      moduleName = "/".intercalate (directories ++ [stem]) ∧
      parts = directories ++ [stem ++ sourceSuffix] := by
  obtain ⟨directories, stem, inner, clear, rfl⟩ := isModuleName_of_suffix names nonempty suffixed
  refine ⟨directories, stem, inner, clear, rfl, ?_⟩
  have all : ∀ part ∈ directories ++ [stem ++ sourceSuffix], IsName part := by
    rw [List.forall_mem_append, List.forall_mem_singleton]
    exact ⟨inner, isExtension_sourceSuffix.isName clear⟩
  rw [intercalate_concat_append] at suffixed
  exact intercalate_inj names all suffixed

theorem splitAt_intercalate_concat {directories : List String} {stem : String}
    (names : ∀ part ∈ directories, IsName part) (clear : '/' ∉ stem.toList) :
    Text.splitAt '/' ("/".intercalate (directories ++ [stem])).toList =
      directories.map String.toList ++ [stem.toList] := by
  have split := @Text.splitAt_intercalate '/' ((directories ++ [stem]).map String.toList) (by simp)
    (by
      rw [List.forall_mem_map, List.forall_mem_append, List.forall_mem_singleton]
      exact ⟨fun part member => (names part member).1.2.2, clear⟩)
  rw [String.toList_intercalate]
  simpa using split

theorem discover_nodup {tree : Tree} (named : tree.Named)
    (distinct : (tree.entries.map (·.1)).Nodup) (sourceDir : Path) (exclude : List String) :
    ((discover tree sourceDir exclude).map (·.moduleName)).Nodup := by
  unfold discover
  split
  · exact .nil
  · next start located =>
    have names : ∀ place ∈ Discovery.filesBelow tree exclude start tree.height [],
        ∀ part ∈ place, IsName part := by
      intro place walked
      exact named.of_isFileAt (Discovery.mem_filesBelow_nil.mp walked).1
    have different : (Discovery.unsorted tree start sourceDir exclude).Pairwise
        fun first second => first.moduleName ≠ second.moduleName := by
      rw [Discovery.unsorted, List.pairwise_filterMap]
      refine (Discovery.filesBelow_nodup distinct tree.height []).imp_of_mem ?_
      intro place other walked otherWalked apart first found second otherFound same
      obtain ⟨-, relative, suffixed⟩ := source?_eq_some found
      obtain ⟨-, otherRelative, otherSuffixed⟩ := source?_eq_some otherFound
      refine apart (intercalate_inj (names place walked) (names other otherWalked) ?_)
      rw [← relative, ← otherRelative, suffixed, otherSuffixed, same]
    have sorted := (List.mergeSort_perm (Discovery.unsorted tree start sourceDir exclude)
      fun first second => decide (first.relativePath ≤ second.relativePath)).map (·.moduleName)
    rw [sorted.nodup_iff, List.Nodup, List.pairwise_map]
    exact different

end FfiBindings
