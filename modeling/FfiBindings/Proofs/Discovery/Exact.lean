import Mathlib.Data.List.Nodup
import FfiBindings.Proofs.Discovery
import FfiBindings.Proofs.Tree.Growth

set_option autoImplicit false

namespace FfiBindings

namespace Tree

variable {tree other : Tree}

theorem entry?_of_perm (distinct : (tree.entries.map (·.1)).Nodup)
    (relisted : other.entries.Perm tree.entries) (place : Location) :
    other.entry? place = tree.entry? place := by
  by_cases root : place = []
  · rw [root, entry?_nil, entry?_nil]
  · have alsoDistinct : (other.entries.map (·.1)).Nodup := (relisted.map _).nodup_iff.mpr distinct
    rw [Option.ext_iff]
    intro entry
    rw [entry?_of_ne_nil _ root, entry?_of_ne_nil _ root]
    constructor
    · intro held
      have listed := mem_entries_of_found root ((entry?_of_ne_nil other root).trans held)
      exact lookup_of_mem distinct (relisted.mem_iff.mp listed)
    · intro held
      have listed := mem_entries_of_found root ((entry?_of_ne_nil tree root).trans held)
      exact lookup_of_mem alsoDistinct (relisted.mem_iff.mpr listed)

section SameEntries

variable (same : ∀ place, other.entry? place = tree.entry? place)

include same

theorem walk_of_same (follow : Bool) (links : Nat) (here : Location) (parts : List String) :
    other.walk follow links here parts = tree.walk follow links here parts := by
  induction links using Nat.strong_induction_on generalizing here parts with
  | h links fewer =>
    induction parts generalizing here with
    | nil => rw [walk, walk]
    | cons part rest ih =>
      by_cases up : part = ".."
      · subst up
        rw [walk, walk, ih]
      · rw [walk.eq_3 _ _ _ _ _ _ up, walk.eq_3 _ _ _ _ _ _ up]
        simp only [same, ih]
        cases links with
        | zero => rfl
        | succ links => simp only [fewer links (Nat.lt_succ_self links)]

theorem locate_of_same (cwd : Location) (follow : Bool) (path : Path) :
    other.locate cwd follow path = tree.locate cwd follow path :=
  walk_of_same same follow linkLimit (startOf path cwd) path.parts

theorem status_of_same (cwd : Location) (path : Path) :
    other.status cwd path = tree.status cwd path := by
  simp only [status, locate_of_same same, same]

end SameEntries

end Tree

namespace Discovery

variable {tree other : Tree} {exclude : List String} {sourceDir : Path} {source : SourceFile}
  {start : Location} {below : List String}

theorem enters_concat_iff {upper : List String} {name : String} :
    enters exclude (upper ++ [name]) = true ↔
      name ≠ "target" ∧ name ≠ "__pycache__" ∧ name.startsWith "." = false ∧
        Glob.isExcluded exclude ("/".intercalate (upper ++ [name])) true = false := by
  simp [enters, isSkippedName, skippedDirectories, and_assoc]

/-- A place below the source directory with a source in it. -/
structure IsSourceAt (tree : Tree) (exclude : List String) (start : Location)
    (below : List String) : Prop where
  file : isFileAt tree (start ++ below) = true
  suffixed : ∃ directories stem, below = directories ++ [stem ++ ".rs"]
  kept : Glob.isExcluded exclude ("/".intercalate below) false = false
  inOpen : ∀ upper name rest, below = upper ++ name :: rest → rest ≠ [] →
    name ≠ "target" ∧ name ≠ "__pycache__" ∧ name.startsWith "." = false ∧
      Glob.isExcluded exclude ("/".intercalate (upper ++ [name])) true = false

-- In a sound tree all that is above a file is a directory, so only the names decide.
theorem entered_iff (sound : tree.Sound) (isFile : isFileAt tree (start ++ below) = true) :
    (∀ upper, upper <+: below → upper ≠ [] → upper ≠ below → Entered tree exclude start upper) ↔
      ∀ upper name rest, below = upper ++ name :: rest → rest ≠ [] →
        enters exclude (upper ++ [name]) = true := by
  constructor
  · intro entered upper name rest whole further
    rw [List.append_cons] at whole
    refine (entered (upper ++ [name]) ⟨rest, whole.symm⟩ (by simp) fun same => further ?_).2
    exact List.self_eq_append_right.mp (same.trans whole)
  · intro enters place begins nonempty proper
    obtain ⟨rest, rfl⟩ := begins
    have further : rest ≠ [] := fun none => proper (by rw [none, List.append_nil])
    obtain ⟨upper, name, rfl⟩ : ∃ upper name, place = upper ++ [name] :=
      ⟨place.dropLast, place.getLast nonempty, (List.dropLast_concat_getLast nonempty).symm⟩
    obtain ⟨entry, held, -⟩ := isFileAt_iff.mp isFile
    have above := sound.above held
    rw [← List.append_assoc, List.dropLast_append_of_ne_nil further] at above
    exact ⟨above _ (List.prefix_append _ _), enters upper name rest (by simp) further⟩

theorem mem_discover_iff_isSourceAt (sound : tree.Sound) (named : tree.Named) :
    source ∈ discover tree sourceDir exclude ↔
      ∃ start below, tree.locate [] true sourceDir = .ok start ∧
        IsSourceAt tree exclude start below ∧
        source.path = { sourceDir with parts := sourceDir.parts ++ below } ∧
        source.relativePath = "/".intercalate below ∧
        source.relativePath = source.moduleName ++ ".rs" := by
  rw [mem_discover_iff]
  constructor
  · rintro ⟨start, below, located, isFile, nonempty, entered, taken⟩
    obtain ⟨path, relative, suffixed, kept⟩ := source?_eq_some_iff.mp taken
    obtain ⟨directories, stem, -, -, -, whole⟩ :=
      exists_stem (named.of_isFileAt isFile) nonempty (relative.symm.trans suffixed)
    refine ⟨start, below, located, ⟨isFile, ⟨directories, stem, whole⟩, relative ▸ kept, ?_⟩, path,
      relative, suffixed⟩
    intro upper name rest split further
    exact enters_concat_iff.mp ((entered_iff sound isFile).mp entered upper name rest split further)
  · rintro ⟨start, below, located, ⟨isFile, ⟨directories, stem, whole⟩, kept, inOpen⟩, path,
      relative, suffixed⟩
    refine ⟨start, below, located, isFile, by simp [whole], (entered_iff sound isFile).mpr ?_,
      source?_eq_some_iff.mpr ⟨path, relative, suffixed, relative ▸ kept⟩⟩
    intro upper name rest split further
    exact enters_concat_iff.mpr (inOpen upper name rest split further)

theorem mem_discover_of_same (same : ∀ place, other.entry? place = tree.entry? place) :
    source ∈ discover other sourceDir exclude ↔ source ∈ discover tree sourceDir exclude := by
  have isFile : ∀ place, isFileAt other place = isFileAt tree place := by
    intro place
    rw [isFileAt, isFileAt, same]
    congr 1
    funext entry
    cases entry with
    | file | directory => rfl
    | link target => simp only [isFileEntry, Tree.status_of_same same]
  simp only [mem_discover_iff, Tree.locate_of_same same, isFile, Entered, same]

theorem discover_increasing (named : tree.Named) (distinct : (tree.entries.map (·.1)).Nodup)
    (sourceDir : Path) (exclude : List String) :
    ((discover tree sourceDir exclude).map (·.relativePath)).Pairwise (· < ·) := by
  have sorted := discover_sorted tree sourceDir exclude
  have apart := discover_nodup named distinct sourceDir exclude
  rw [List.pairwise_map] at sorted ⊢
  rw [List.Nodup, List.pairwise_map] at apart
  refine (sorted.and apart).imp_of_mem ?_
  intro first second member member' ⟨ordered, different⟩
  by_contra notBefore
  have same := String.le_antisymm ordered (String.not_lt.mp notBefore)
  obtain ⟨-, -, -, -, -, -, suffixed⟩ := mem_discover member
  obtain ⟨-, -, -, -, -, -, suffixed'⟩ := mem_discover member'
  rw [suffixed, suffixed'] at same
  exact different ((String.append_left_inj sourceSuffix).mp same)

theorem nodup_of_increasing {paths : List String} (increasing : paths.Pairwise (· < ·)) :
    paths.Nodup := by
  apply increasing.imp
  intro path other before same
  rw [same] at before
  exact String.lt_irrefl _ before

theorem eq_of_increasing {sources others : List SourceFile}
    (increasing : (sources.map (·.relativePath)).Pairwise (· < ·))
    (alsoIncreasing : (others.map (·.relativePath)).Pairwise (· < ·))
    (same : ∀ source, source ∈ sources ↔ source ∈ others) : sources = others := by
  have rearranged : sources.Perm others :=
    (List.perm_ext_iff_of_nodup (nodup_of_increasing increasing).of_map
      (nodup_of_increasing alsoIncreasing).of_map).mpr same
  refine rearranged.eq_of_pairwise ?_ (List.pairwise_map.mp increasing)
    (List.pairwise_map.mp alsoIncreasing)
  intro first second _ _ before after
  exact absurd after (String.lt_asymm before)

theorem IsSourceAt.existsUnique (sound : tree.Sound) (named : tree.Named)
    (located : tree.locate [] true sourceDir = .ok start)
    (isSource : IsSourceAt tree exclude start below) :
    ∃! source, source ∈ discover tree sourceDir exclude ∧
      source.relativePath = "/".intercalate below := by
  obtain ⟨directories, stem, whole⟩ := isSource.suffixed
  have relative : "/".intercalate below = "/".intercalate (directories ++ [stem]) ++ ".rs" := by
    rw [intercalate_concat_append, whole]
  have found : ⟨{ sourceDir with parts := sourceDir.parts ++ below }, "/".intercalate below,
      "/".intercalate (directories ++ [stem])⟩ ∈ discover tree sourceDir exclude :=
    (mem_discover_iff_isSourceAt sound named).mpr
      ⟨start, below, located, isSource, rfl, rfl, relative⟩
  refine ⟨_, ⟨found, rfl⟩, ?_⟩
  rintro other ⟨member, same⟩
  have distinct := nodup_of_increasing (discover_increasing named sound.distinct sourceDir exclude)
  exact List.inj_on_of_nodup_map distinct member found same

end Discovery

open Discovery in
theorem discover_exact {tree : Tree} (sound : tree.Sound) (named : tree.Named) (sourceDir : Path)
    (exclude : List String) :
    ((discover tree sourceDir exclude).map (·.relativePath)).Pairwise (· < ·) ∧
      ((discover tree sourceDir exclude).map (·.moduleName)).Nodup ∧
      (∀ source, source ∈ discover tree sourceDir exclude ↔
        ∃ start below, tree.locate [] true sourceDir = .ok start ∧
          IsSourceAt tree exclude start below ∧
          source.path = { sourceDir with parts := sourceDir.parts ++ below } ∧
          source.relativePath = "/".intercalate below ∧
          source.relativePath = source.moduleName ++ ".rs") ∧
      (∀ start below, tree.locate [] true sourceDir = .ok start →
        IsSourceAt tree exclude start below →
        ∃! source, source ∈ discover tree sourceDir exclude ∧
          source.relativePath = "/".intercalate below) ∧
      ∀ other : Tree, other.entries.Perm tree.entries →
        discover other sourceDir exclude = discover tree sourceDir exclude := by
  have increasing := discover_increasing named sound.distinct sourceDir exclude
  refine ⟨increasing, discover_nodup named sound.distinct sourceDir exclude,
    fun source => mem_discover_iff_isSourceAt sound named,
    fun start below located isSource => isSource.existsUnique sound named located, ?_⟩
  intro other relisted
  have alsoNamed : other.Named := fun entry listed => named entry (relisted.mem_iff.mp listed)
  have alsoIncreasing := discover_increasing alsoNamed
    ((relisted.map _).nodup_iff.mpr sound.distinct) sourceDir exclude
  refine eq_of_increasing alsoIncreasing increasing fun source => ?_
  exact mem_discover_of_same (Tree.entry?_of_perm sound.distinct relisted)

def crowdedTree : Tree where
  entries :=
    [ (["rs", "net", "tcp.rs"], .file [] false),
      (["rs", "net", "gen_a.rs"], .file [] false),
      (["rs", "net.rs"], .file [] false),
      (["rs", "old", "c.rs"], .file [] false),
      (["rs", ".git", "b.rs"], .file [] false),
      (["rs", "target", "a.rs"], .file [] false),
      (["rs", "again"], .link "net"),
      (["rs", "net"], .directory),
      (["rs", "old"], .directory),
      (["rs", ".git"], .directory),
      (["rs", "target"], .directory),
      (["rs"], .directory) ]

theorem crowdedTree_discovered :
    ⟨Location.path ["rs", "net", "tcp.rs"], "net/tcp.rs", "net/tcp"⟩ ∈
        discover crowdedTree (Location.path ["rs"]) ["old/", "gen_*"] ∧
      ⟨Location.path ["rs", "target", "a.rs"], "target/a.rs", "target/a"⟩ ∉
        discover crowdedTree (Location.path ["rs"]) ["old/", "gen_*"] ∧
      discover ⟨crowdedTree.entries.reverse⟩ (Location.path ["rs"]) ["old/", "gen_*"] =
        discover crowdedTree (Location.path ["rs"]) ["old/", "gen_*"] := by
  have sound : crowdedTree.Sound := by decide +kernel
  have named : crowdedTree.Named := by decide +kernel
  have located : crowdedTree.locate [] true (Location.path ["rs"]) = .ok ["rs"] :=
    Tree.Leads.walk_eq (.into (by decide) (by decide) rfl (.done _ _))
  obtain ⟨-, -, found, -, relisted⟩ :=
    discover_exact sound named (Location.path ["rs"]) ["old/", "gen_*"]
  have open_net : ∀ upper name rest, ["net", "tcp.rs"] = upper ++ name :: rest → rest ≠ [] →
      upper = [] ∧ name = "net" := by
    intro upper name rest split further
    rcases List.cons_eq_append_iff.mp split with ⟨rfl, front⟩ | ⟨others, rfl, behind⟩
    · exact ⟨rfl, (List.cons.inj front).1⟩
    · have lengths := congrArg List.length behind
      have := List.length_pos_of_ne_nil further
      simp only [List.length_append, List.length_cons, List.length_nil] at lengths
      omega
  refine ⟨(found _).mpr ⟨["rs"], ["net", "tcp.rs"], located, ⟨?_, ⟨["net"], "tcp", rfl⟩, ?_, ?_⟩,
    rfl, ?_, rfl⟩, ?_, relisted _ (List.reverse_perm _)⟩
  · decide +kernel
  · decide +kernel
  · intro upper name rest split further
    obtain ⟨rfl, rfl⟩ := open_net upper name rest split further
    decide +kernel
  · decide +kernel
  · intro member
    obtain ⟨start, below, -, ⟨-, -, -, inOpen⟩, path, -, -⟩ := (found _).mp member
    obtain rfl : ["target", "a.rs"] = below := by
      simpa [Location.path] using congrArg Path.parts path
    exact (inOpen [] "target" ["a.rs"] rfl (by simp)).1 rfl

end FfiBindings
