import Mathlib.Data.List.Basic
import FfiBindings.Proofs.Generation.Frame
import FfiBindings.Proofs.Tree.Room

set_option autoImplicit false

namespace FfiBindings

open ExceptT

variable {keep : Location → Bool} {before after : Tree}

namespace Tree.SameAt

variable {cwd : Location} {path : Path}

section Places

variable (same : SameAt keep before after) (unlinked : before.Unlinked)
  (rooted : path.isAbsolute = true) (clear : ".." ∉ path.parts)
  (kept : ∀ upper, upper <+: path.parts → keep upper = true)

include same unlinked rooted clear kept

theorem status : after.status cwd path = before.status cwd path := by
  symm
  exact status_congr unlinked rooted clear fun upper begins =>
    (same.entry_eq (kept upper begins)).symm

theorem isDirectory : after.isDirectory cwd path = before.isDirectory cwd path := by
  rw [Tree.isDirectory, Tree.isDirectory, leadsTo, leadsTo,
    same.status unlinked rooted clear kept]

theorem pathExists : after.pathExists cwd path = before.pathExists cwd path := by
  rw [Tree.pathExists, Tree.pathExists, leadsTo, leadsTo, same.status unlinked rooted clear kept]

theorem readBytes : after.readBytes cwd path = before.readBytes cwd path := by
  rw [Tree.readBytes, Tree.readBytes, same.status unlinked rooted clear kept]

end Places

theorem names (same : SameAt keep before after) {location : Location}
    (kept : ∀ name, keep (location ++ [name]) = true) :
    after.names location = before.names location := by
  have listed : ∀ tree : Tree, tree.names location =
      (tree.entries.filter fun entry => keep entry.1).filterMap fun entry =>
        if entry.1.dropLast == location then entry.1.getLast? else none := by
    intro tree
    rw [Tree.names, List.filterMap_filter]
    refine List.filterMap_congr fun entry _ => ?_
    cases found : if entry.1.dropLast == location then entry.1.getLast? else none with
    | none => simp
    | some name =>
      rw [listedAs_iff] at found
      rw [found, kept, if_pos rfl]
  rw [listed, listed, same]

theorem filesBelow (same : SameAt keep before after) (unlinked : before.Unlinked)
    (exclude : List String) {start : Location}
    (kept : ∀ place, start <+: place → keep place = true) (depth : Nat) (parts : List String) :
    Discovery.filesBelow after exclude start depth parts =
      Discovery.filesBelow before exclude start depth parts := by
  have held : ∀ place, after.entry? (start ++ place) = before.entry? (start ++ place) :=
    fun place => same.entry_eq (kept _ (List.prefix_append _ _))
  have isFile : ∀ place, Discovery.isFileAt after (start ++ place) =
      Discovery.isFileAt before (start ++ place) := by
    intro place
    rw [Discovery.isFileAt, Discovery.isFileAt, held]
    cases found : before.entry? (start ++ place) with
    | none => rfl
    | some entry =>
      cases entry with
      | file | directory => rfl
      | link target => exact absurd found (unlinked _ target)
  induction depth generalizing parts with
  | zero => rfl
  | succ depth ih =>
    have listed : after.names (start ++ parts) = before.names (start ++ parts) :=
      same.names fun name => kept _ (by simp)
    have onward : Discovery.filesBelow after exclude start depth =
        Discovery.filesBelow before exclude start depth := funext ih
    simp only [Discovery.filesBelow, listed, held, isFile, onward]

theorem unsorted (same : SameAt keep before after) (unlinked : before.Unlinked) {start : Location}
    (sourceDir : Path) (exclude : List String)
    (kept : ∀ place, place.overlaps start = true → keep place = true) :
    Discovery.unsorted after start sourceDir exclude =
      Discovery.unsorted before start sourceDir exclude := by
  have below : ∀ place, start <+: place → keep place = true := by
    intro place begins
    apply kept
    rw [Location.overlaps, Location.covers_iff.mpr begins, Bool.or_true]
  -- The trees need not be of one height, but no walk is cut short at that of the higher one.
  rw [Discovery.unsorted, Discovery.unsorted,
    ← Discovery.filesBelow_of_height_le (Nat.le_max_left after.height before.height),
    same.filesBelow unlinked exclude below,
    Discovery.filesBelow_of_height_le (Nat.le_max_right after.height before.height)]

theorem discover (same : SameAt keep before after) (unlinked : before.Unlinked)
    {sourceDir : Path} (rooted : sourceDir.isAbsolute = true)
    (clear : ".." ∉ sourceDir.parts) (exclude : List String)
    (kept : ∀ place, place.overlaps sourceDir.parts = true → keep place = true) :
    FfiBindings.discover after sourceDir exclude = FfiBindings.discover before sourceDir exclude := by
  have located : after.locate [] true sourceDir = before.locate [] true sourceDir := by
    symm
    rw [locate, locate, startOf, if_pos rooted]
    refine walk_congr unlinked clear fun upper begins => (same.entry_eq ?_).symm
    exact kept upper (Location.overlaps_of_prefix begins)
  rw [FfiBindings.discover, FfiBindings.discover, located]
  cases found : before.locate [] true sourceDir with
  | error defect => rfl
  | ok start =>
    obtain ⟨rfl, -, -⟩ := (locate_eq_ok_iff unlinked rooted clear).mp found
    simp only [same.unsorted unlinked sourceDir exclude kept]

end Tree.SameAt

theorem placeOf_congr (unlinked : before.Unlinked) (alsoUnlinked : after.Unlinked) :
    placeOf after = placeOf before := by
  funext root name
  rw [placeOf, placeOf, Tree.resolve_congr alsoUnlinked unlinked]

namespace Settings

theorem ofEntries_congr (unlinked : before.Unlinked) (alsoUnlinked : after.Unlinked)
    (root : Location) (entries : Value.Entries) :
    ofEntries after root entries = ofEntries before root entries := by
  have checked : checkLayout after = checkLayout before := by
    funext root names
    unfold checkLayout checkOutput
    rw [placeOf_congr unlinked alsoUnlinked]
  rw [ofEntries, ofEntries, checked]

theorem fileFor_of_directory {session : Session} {tree : Tree} {root : Location}
    (directory : tree.isDirectory session.cwd root.path = .ok true) :
    fileFor session tree root.path = tree.resolve session.cwd (root.path / settingsFileName) := by
  have expanded : session.expandHome root.path = .ok root.path := rfl
  simp only [fileFor, expanded, bind, Except.bind, directory]
  split <;> rfl

theorem settingsFile_eq {tree : Tree} (unlinked : tree.Unlinked) {cwd root file : Location}
    (clear : ".." ∉ root) (found : tree.resolve cwd (root.path / settingsFileName) = .ok file) :
    file = root ++ [settingsFileName] := by
  have parts : (root.path / settingsFileName).parts = root ++ [settingsFileName] := rfl
  have downward : ∀ part ∈ root ++ [settingsFileName], part ≠ ".." := by
    intro part member up
    subst up
    simp [settingsFileName, clear] at member
  have place := Tree.resolve_eq_steps unlinked found
  rwa [parts, Location.steps_of_names downward] at place

theorem load_congr (same : Tree.SameAt keep before after) (unlinked : before.Unlinked)
    (alsoUnlinked : after.Unlinked) {session : Session} {root : Location} (clear : ".." ∉ root)
    (directory : before.isDirectory session.cwd root.path = .ok true)
    (kept : ∀ upper, upper <+: root ++ [settingsFileName] → keep upper = true) :
    load session after root.path = load session before root.path := by
  have resolves : ∀ path, after.resolve session.cwd path = before.resolve session.cwd path :=
    Tree.resolve_congr alsoUnlinked unlinked session.cwd
  have stillDirectory : after.isDirectory session.cwd root.path = .ok true := by
    rw [← directory]
    exact same.isDirectory unlinked rfl clear fun upper begins =>
      kept upper (begins.trans (List.prefix_append _ _))
  unfold load
  -- Which file is read does not depend on the tree; the layout is checked without looking at it.
  rw [fileFor_of_directory directory, fileFor_of_directory stillDirectory, resolves]
  cases found : before.resolve session.cwd (root.path / settingsFileName) with
  | error error => rfl
  | ok file =>
    obtain rfl := settingsFile_eq unlinked clear found
    have downward : ".." ∉ root ++ [settingsFileName] := by simpa [settingsFileName] using clear
    have exists_eq := @Tree.SameAt.pathExists keep before after session.cwd
      (Location.path (root ++ [settingsFileName])) same unlinked rfl downward kept
    have read_eq := @Tree.SameAt.readBytes keep before after session.cwd
      (Location.path (root ++ [settingsFileName])) same unlinked rfl downward kept
    simp only [Except.mapError_ok, bind, Except.bind, resolves, exists_eq, read_eq,
      ofEntries_congr unlinked alsoUnlinked]

end Settings

def Layout.isInput (layout : Layout) (place : Location) : Bool :=
  place.overlaps layout.sourceDir.parts || place == layout.root.parts ++ [settingsFileName]

theorem Layout.isInput_of_overlaps {layout : Layout} {place : Location}
    (overlap : place.overlaps layout.sourceDir.parts = true) : layout.isInput place = true := by
  rw [isInput, overlap, Bool.true_or]

theorem Layout.isInput_of_prefix {layout : Layout} {upper : Location}
    (begins : upper <+: layout.sourceDir.parts) : layout.isInput upper = true :=
  isInput_of_overlaps (Location.overlaps_of_prefix begins)

-- A layout whose paths never go up.
structure LayoutNames.Downward (names : LayoutNames) : Prop where
  source : ".." ∉ Path.partsOf names.sourceDir.toList
  output : ∀ key : OutputKey, ".." ∉ Path.partsOf (key.valueIn names).toList

theorem Path.div_downward {root : Location} {text : String} (clear : ".." ∉ root)
    (relative : Path.anchorOf text.toList = .here) (downward : ".." ∉ Path.partsOf text.toList) :
    (root.path / text).isAbsolute = true ∧ ".." ∉ (root.path / text).parts ∧
      root <+: (root.path / text).parts := by
  rw [Path.div_of_relative relative]
  refine ⟨rfl, ?_, List.prefix_append _ _⟩
  simp [clear, downward]

namespace Generation

/-- What a generation finds before it writes anything. -/
structure Finds (world : World) (directory : Path) (root : Location) (settings : Settings)
    (layout : Layout) (sources : List SourceFile) : Prop where
  resolved : world.session.resolve world.tree directory = .ok root
  project : world.tree.isDirectory world.session.cwd root.path = .ok true
  accepted : Settings.load world.session world.tree root.path = .ok settings
  laidOut : (layoutOf root.path settings.layout).outcome world = .ok layout
  sourced : world.tree.isDirectory world.session.cwd layout.sourceDir = .ok true
  discovered : sources = discover world.tree layout.sourceDir settings.excludePaths

variable {first world : World} {directory : Path} {root : Location} {settings : Settings}
  {layout : Layout} {sources : List SourceFile}

section Finding

variable (finds : Finds first directory root settings layout sources)
  (unlinked : first.tree.Unlinked) (named : first.Named)

include finds unlinked named

theorem Finds.clear : ".." ∉ root := by
  have straight := Session.resolve_straight unlinked named finds.resolved
  rw [← straight]
  exact Location.notMem_steps List.not_mem_nil

theorem Finds.layout_eq : layout = Layout.ofNames root.path settings.layout :=
  layoutOf_eq_ok unlinked (Session.resolve_straight unlinked named finds.resolved) finds.laidOut

theorem Finds.source (downward : ".." ∉ Path.partsOf settings.layout.sourceDir.toList) :
    layout.sourceDir.isAbsolute = true ∧ ".." ∉ layout.sourceDir.parts ∧
      root <+: layout.sourceDir.parts := by
  rw [finds.layout_eq unlinked named]
  exact Path.div_downward (finds.clear unlinked named)
    (Settings.load_relative finds.accepted).source downward

theorem Finds.congr (downward : settings.layout.Downward) (session : world.session = first.session)
    (alsoUnlinked : world.tree.Unlinked) (same : Tree.SameAt layout.isInput first.tree world.tree) :
    Finds world directory root settings layout sources := by
  have clear := finds.clear unlinked named
  obtain ⟨rooted, upless, inside⟩ := finds.source unlinked named downward.source
  have file : layout.root.parts = root := by
    rw [finds.layout_eq unlinked named]
    rfl
  have keptFile : ∀ upper, upper <+: root ++ [settingsFileName] → layout.isInput upper = true := by
    intro upper begins
    rcases List.prefix_concat_iff.mp begins with rfl | higher
    · rw [Layout.isInput, file, beq_self_eq_true, Bool.or_true]
    · exact Layout.isInput_of_prefix (higher.trans inside)
  have resolves : ∀ path,
      world.session.resolve world.tree path = first.session.resolve first.tree path := by
    intro path
    simp only [Session.resolve, session, Tree.resolve_congr alsoUnlinked unlinked]
  constructor
  · rw [resolves, finds.resolved]
  · rw [session, same.isDirectory unlinked rfl clear fun upper begins =>
      Layout.isInput_of_prefix (begins.trans inside), finds.project]
  · rw [session, Settings.load_congr same unlinked alsoUnlinked clear finds.project keptFile,
      finds.accepted]
  · rw [← finds.laidOut]
    simp only [layoutOf, outcome_bind, Run.resolve_outcome, resolves]
    split <;> rfl
  · rw [session, same.isDirectory unlinked rooted upless fun _ => Layout.isInput_of_prefix,
      finds.sourced]
  · rw [same.discover unlinked rooted upless _ fun _ => Layout.isInput_of_overlaps]
    exact finds.discovered

end Finding

end Generation

end FfiBindings
