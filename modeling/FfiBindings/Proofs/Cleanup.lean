import FfiBindings.Proofs.Generation.Frame
import FfiBindings.Proofs.Settings.File
import FfiBindings.Proofs.Tree.Resolution
import FfiBindings.Proofs.Tree.Ways

set_option autoImplicit false

namespace FfiBindings

open ExceptT

namespace Tree

variable {base tree : Tree} {cwd location : Location} {path : Path} {entry : Entry}
  {keep : Location → Bool}

/-- Whether a path, links followed, leads to no place to keep and to none above one. -/
def ClearOf (base : Tree) (cwd : Location) (keep : Location → Bool) (path : Path) : Prop :=
  ∀ place, base.locate cwd true path = .ok place →
    ∀ lower, place.covers lower = true → keep lower = false

-- Nothing was added to a tree, and nothing taken from the places to keep.
structure Thinned (keep : Location → Bool) (base tree : Tree) : Prop where
  fits : Fits tree base
  same : SameAt keep base tree

theorem thinned_self (keep : Location → Bool) (tree : Tree) : Thinned keep tree tree :=
  ⟨refl tree, refl tree⟩

theorem Thinned.erase (thinned : Thinned keep base tree) (outside : keep location = false) :
    Thinned keep base (tree.erase location) :=
  ⟨IsTrans.trans _ _ _ (erase_fits tree location) thinned.fits,
    IsTrans.trans _ _ _ thinned.same (sameAt_erase outside)⟩

theorem Thinned.eraseBelow (thinned : Thinned keep base tree)
    (outside : ∀ lower, location.strictlyCovers lower = true → keep lower = false) :
    Thinned keep base (tree.eraseBelow location) :=
  ⟨IsTrans.trans _ _ _ (eraseBelow_fits tree location) thinned.fits,
    IsTrans.trans _ _ _ thinned.same (sameAt_eraseBelow outside)⟩

theorem Thinned.locate (thinned : Thinned keep base tree)
    (located : tree.locate cwd false path = .ok location)
    (held : tree.entry? location = some entry) (noLink : ∀ target, entry ≠ .link target) :
    base.locate cwd true path = .ok location :=
  (((leads_of_walk located).followed held noLink).fits thinned.fits held).walk_eq

section Removing

variable (thinned : Thinned keep base tree) (clear : base.ClearOf cwd keep path)
  (links : ∀ place target, base.entry? place = some (.link target) → keep place = false)

include thinned clear links

theorem Thinned.erase_located (located : tree.locate cwd false path = .ok location)
    (held : tree.entry? location = some entry) : Thinned keep base (tree.erase location) := by
  apply thinned.erase
  -- A link is removed where it stands and not where it leads, so it is never among what is kept.
  cases entry with
  | link target => exact links location target (thinned.fits.ways _ _ held (by simp))
  | file content executable =>
    exact clear location (thinned.locate located held (by simp)) location
      (Location.covers_iff.mpr List.prefix_rfl)
  | directory =>
    exact clear location (thinned.locate located held (by simp)) location
      (Location.covers_iff.mpr List.prefix_rfl)

theorem unlink_thinned : Thinned keep base ((unlink cwd path).after tree) := by
  unfold unlink
  simp only [after_bind, outcome_get, after_get]
  split
  · exact thinned
  · next location located =>
    split
    · exact thinned
    · exact thinned
    · next entry _ held => exact thinned.erase_located clear links located held

theorem removeDirectory_thinned : Thinned keep base ((removeDirectory cwd path).after tree) := by
  unfold removeDirectory
  simp only [after_bind, outcome_get, after_get]
  split
  · exact thinned
  · next location located =>
    split
    · exact thinned
    · next present =>
      obtain ⟨entry, held⟩ : ∃ entry, tree.entry? location = some entry := by
        cases found : tree.entry? location with
        | none => simp [found] at present
        | some entry => exact ⟨entry, rfl⟩
      split
      · exact thinned.erase_located clear links located held
      · exact thinned

theorem removeTree_thinned : Thinned keep base ((removeTree cwd path).after tree) := by
  unfold removeTree
  simp only [after_bind, outcome_get, after_get]
  split
  · exact thinned
  · next location located =>
    split
    · exact thinned
    · exact thinned
    · exact thinned
    · next held =>
      simp only [after_bind, outcome_set, after_set]
      have below : ∀ lower, location.strictlyCovers lower = true → keep lower = false := by
        intro lower under
        have covered := Location.covers_iff.mpr (Location.strictlyCovers_iff.mp under).1
        exact clear location (thinned.locate located held (by simp)) lower covered
      exact removeDirectory_thinned (thinned.eraseBelow below) clear links

end Removing

end Tree

namespace World

structure Spared (keep : Location → Bool) (start world : World) : Prop where
  session : world.session = start.session
  logs : ∀ location, world.LogsTo location → start.LogsTo location
  tree : Tree.Thinned keep start.tree world.tree

variable {keep : Location → Bool} {start world : World}

theorem spared_self (keep : Location → Bool) (world : World) : Spared keep world world :=
  ⟨rfl, fun _ => id, Tree.thinned_self keep world.tree⟩

theorem Spared.withTree (spared : Spared keep start world) {tree : Tree}
    (thinned : Tree.Thinned keep start.tree tree) : Spared keep start (world.withTree tree) :=
  ⟨spared.session, fun location logged => spared.logs location (logsTo_withTree logged), thinned⟩

theorem foldl_log_leavesAlone (records : List Log.Record) (world : World) (location : Location) :
    LeavesAlone world (records.foldl World.log world) location := by
  induction records generalizing world with
  | nil => exact .inl (.inl rfl)
  | cons record rest ih =>
    exact (log_leavesAlone world record location).trans logsTo_log.mp (ih (world.log record))

end World

namespace Cleanup

variable {layout : Layout}

theorem clean_after {holds : World → Prop} {world : World} (start : holds world)
    (modules : ∀ world, holds world → holds ((removeOutput layout.modulesDir).after world))
    (libraries : ∀ world, holds world → holds ((removeOutput layout.binDir).after world))
    (index : ∀ world, holds world → holds ((removeFile layout.indexFile).after world)) :
    ∃ (cleared : World) (records : List Log.Record), holds cleared ∧
      (clean layout).after world = records.foldl World.log cleared := by
  have afterModules := modules world start
  have afterLibraries := libraries _ afterModules
  have afterIndex := index _ afterLibraries
  unfold clean
  -- Wherever the removing stops, nothing is reported; only at its end there are records.
  rw [after_bind]
  split
  · next first _ =>
    rw [after_bind]
    split
    · next second _ =>
      rw [after_bind]
      split
      · next third _ =>
        refine ⟨_, (first ++ second ++ third).map removedRecord, afterIndex, ?_⟩
        simp only [after_bind_pure, Run.logAll_after]
      · exact ⟨_, [], afterIndex, rfl⟩
    · exact ⟨_, [], afterLibraries, rfl⟩
  · exact ⟨_, [], afterModules, rfl⟩

section Sparing

variable {keep : Location → Bool} {start : World} {path : Path}
  (clear : start.tree.ClearOf start.session.cwd keep path)
  (links : ∀ place target, start.tree.entry? place = some (.link target) → keep place = false)

include clear links

theorem unlink_spares {world : World} (spared : World.Spared keep start world) :
    World.Spared keep start ((Run.unlink path).after world) := by
  rw [Run.unlink_after]
  apply spared.withTree
  rw [spared.session]
  exact Tree.unlink_thinned spared.tree clear links

theorem removeFile_spares {world : World} (spared : World.Spared keep start world) :
    World.Spared keep start ((removeFile path).after world) := by
  unfold removeFile
  rw [after_bind, Run.pathExists_after]
  split
  · next present _ =>
    cases present
    · exact spared
    · simp only [if_true, after_bind_pure]
      exact unlink_spares clear links spared
  · exact spared

theorem removeOutput_spares {world : World} (spared : World.Spared keep start world) :
    World.Spared keep start ((removeOutput path).after world) := by
  unfold removeOutput
  rw [after_bind, Run.isDirectory_after]
  split
  · next directory _ =>
    cases directory
    · exact removeFile_spares clear links spared
    · simp only [if_true, after_bind_pure]
      rw [Run.removeTree_after]
      apply spared.withTree
      rw [spared.session]
      exact Tree.removeTree_thinned spared.tree clear links
  · exact spared

end Sparing

theorem clean_spares {keep : Location → Bool} {world : World}
    (clear : ∀ path ∈ [layout.modulesDir, layout.binDir, layout.indexFile],
      world.tree.ClearOf world.session.cwd keep path)
    (links : ∀ place target, world.tree.entry? place = some (.link target) → keep place = false) :
    ∃ (cleared : World) (records : List Log.Record), World.Spared keep world cleared ∧
      (clean layout).after world = records.foldl World.log cleared :=
  clean_after (World.spared_self keep world)
    (fun _ => removeOutput_spares (clear layout.modulesDir (by simp)) links)
    (fun _ => removeOutput_spares (clear layout.binDir (by simp)) links)
    (fun _ => removeFile_spares (clear layout.indexFile (by simp)) links)

end Cleanup

theorem Location.overlaps_below {place source lower : Location}
    (apart : place.overlaps source = false) (below : place.covers lower = true) :
    lower.overlaps source = false := by
  rw [Bool.eq_false_iff] at apart ⊢
  intro overlap
  apply apart
  rw [overlaps, Bool.or_eq_true] at overlap
  rcases overlap with above | inside
  · have higher := (covers_iff.mp below).trans (covers_iff.mp above)
    simp [overlaps, covers_iff.mpr higher]
  · exact overlaps_of_covers below inside

theorem Tree.resolve_of_isAbsolute (tree : Tree) (cwd other : Location) {path : Path}
    (rooted : path.isAbsolute = true) : tree.resolve cwd path = tree.resolve other path := by
  simp [resolve, startOf, rooted]

namespace Layout

def outputs (layout : Layout) : List Path :=
  [layout.modulesDir, layout.binDir, layout.indexFile]

theorem forall_outputs {root : Path} {names : LayoutNames} {holds : Path → Prop} :
    (∀ path ∈ (ofNames root names).outputs, holds path) ↔
      ∀ key : OutputKey, holds (root / key.valueIn names) := by
  simp only [outputs, ofNames, List.forall_mem_cons, List.not_mem_nil, false_imp_iff, implies_true,
    and_true]
  constructor
  · rintro ⟨modules, libraries, index⟩ (_ | _ | _)
    · exact modules
    · exact libraries
    · exact index
  · exact fun each => ⟨each .modulesDir, each .binDir, each .indexFile⟩

/-- How the sources and the outputs of a layout stand to each other once all links are followed. -/
def ApartIn (layout : Layout) (tree : Tree) (cwd source : Location) : Prop :=
  tree.resolve cwd layout.sourceDir = .ok source ∧
    ∀ path ∈ layout.outputs, ∃ target, tree.resolve cwd path = .ok target ∧
      target.overlaps source = false

end Layout

/-- Whether what was checked is the layout that is used: the settings are in the project directory
itself, or there are none and the standard places are where they seem to be. -/
structure Settings.Own (session : Session) (tree : Tree) (project : Path) (layout : Layout) :
    Prop where
  present : ∀ file, fileFor session tree project = .ok file →
    tree.pathExists session.cwd file.path = .ok true →
    tree.resolve session.cwd (Location.path file.dropLast) = .ok layout.root.parts
  absent : ∀ file, fileFor session tree project = .ok file →
    tree.pathExists session.cwd file.path = .ok false →
    ∀ path ∈ layout.sourceDir :: layout.outputs, tree.resolve session.cwd path = .ok path.parts

variable {world : World} {project : Path} {settings : Settings} {layout : Layout}

theorem Settings.Own.apartIn
    (accepted : Settings.load world.session world.tree project = .ok settings)
    (laidOut : (Generation.layoutOf project settings.layout).outcome world = .ok layout)
    (own : Settings.Own world.session world.tree project layout) :
    ∃ source, layout.ApartIn world.tree world.session.cwd source := by
  obtain ⟨root, -, made, -⟩ := outcome_bind_eq_ok laidOut
  cases made
  obtain ⟨file, checkedRoot, located, resolved, read⟩ := Settings.load_cases accepted
  rcases read with ⟨asked, bytes, entries, -, -, made⟩ | ⟨asked, rfl⟩
  · obtain rfl : root = checkedRoot :=
      Except.ok.inj ((own.present file located asked).symm.trans resolved)
    obtain ⟨source, found, -, outputs⟩ := checkLayout_places (Settings.ofEntries_layout made).2
    have place : ∀ {name : String} {place : Location}, placeOf world.tree root name = .ok place →
        world.tree.resolve world.session.cwd (root.path / name) = .ok place := by
      intro name place found
      rw [placeOf, Except.mapError_eq_ok] at found
      rwa [Tree.resolve_of_isAbsolute _ _ root (Path.isAbsolute_div rfl _)]
    refine ⟨source, place found, Layout.forall_outputs.mpr fun key => ?_⟩
    obtain ⟨target, reached, -, apart⟩ := outputs key
    exact ⟨target, place reached, apart⟩
  · -- Nothing was checked here, but the standard names are different names in one directory.
    have places := List.forall_mem_cons.mp (own.absent file located asked)
    refine ⟨_, places.1, Layout.forall_outputs.mpr fun key => ?_⟩
    refine ⟨_, Layout.forall_outputs.mp places.2 key, ?_⟩
    rw [Path.div_parts_of_relative (LayoutNames.relative_standard.output key), Layout.ofNames,
      Path.div_parts_of_relative LayoutNames.relative_standard.source]
    cases key with
    | modulesDir => exact Location.overlaps_siblings root (show "mod" ≠ "rs" by decide)
    | binDir => exact Location.overlaps_siblings root (show "bin" ≠ "rs" by decide)
    | indexFile => exact Location.overlaps_siblings root (show "index.ts" ≠ "rs" by decide)

/-- Where the settings are the project's own, the resolved sources and outputs lie apart, and cleaning
leaves everything in the sources alone but links. -/
theorem clean_spares_sources
    (accepted : Settings.load world.session world.tree project = .ok settings)
    (laidOut : (Generation.layoutOf project settings.layout).outcome world = .ok layout)
    (own : Settings.Own world.session world.tree project layout) :
    ∃ source, layout.ApartIn world.tree world.session.cwd source ∧
      ∀ location, source.covers location = true →
        (∀ target, world.tree.entry? location ≠ some (.link target)) →
        World.LeavesAlone world ((Cleanup.clean layout).after world) location := by
  obtain ⟨source, apart⟩ := own.apartIn accepted laidOut
  refine ⟨source, apart, fun location inside noLink => ?_⟩
  -- To keep: what is in the sources or above them and is no link. A link in the sources may be an
  -- output itself, if it leads out of them, and then it is removed.
  let keep : Location → Bool := fun place =>
    place.overlaps source && !world.tree.holdsLink place
  have clear : ∀ path ∈ layout.outputs, world.tree.ClearOf world.session.cwd keep path := by
    intro path output place located lower below
    obtain ⟨target, resolved, disjoint⟩ := apart.2 path output
    obtain rfl := Tree.resolve_eq_located resolved located
    simp [keep, Location.overlaps_below disjoint below]
  have links : ∀ place target, world.tree.entry? place = some (.link target) →
      keep place = false := by
    intro place target linked
    simp [keep, Tree.holdsLink, linked]
  have kept : keep location = true := by
    simp [keep, Tree.holdsLink_eq_false.mpr noLink, Location.overlaps, inside]
  obtain ⟨cleared, records, spared, final⟩ := Cleanup.clean_spares clear links
  rw [final]
  have same : World.LeavesAlone world cleared location :=
    .inl (.inl (spared.tree.same.entry_eq kept))
  exact same.trans (spared.logs location) (World.foldl_log_leavesAlone records cleared location)

def linkedOutput : World :=
  { tree :=
      { entries :=
          [ (["p"], .directory),
            (["p", "rs"], .directory),
            (["p", "rs", "a.rs"], .file [] false),
            (["p", "rs", "b.rs"], .link "../mod/b.rs"),
            (["p", "mod"], .directory),
            (["p", "mod", "b.rs"], .file [] false) ] }
    session := { cwd := [], homes := [] }
    time := "" }

def linkedSources : World :=
  { tree :=
      { entries :=
          [ (["p"], .directory),
            (["p", "mod"], .directory),
            (["p", "mod", "src"], .directory),
            (["p", "mod", "src", "a.rs"], .file [] false),
            (["p", "rs"], .link "mod/src") ] }
    session := { cwd := [], homes := [] }
    time := "" }

theorem linkedOutput_spared :
    World.LeavesAlone linkedOutput
      ((Cleanup.clean (Layout.ofNames (Location.path ["p"]) {})).after linkedOutput)
      ["p", "rs", "a.rs"] := by
  have absent : linkedOutput.tree.pathExists [] (Location.path ["p", settingsFileName]) =
      .ok false :=
    Tree.pathExists_of_free (Tree.Leads.walk_eq (.into (by decide) (by decide) rfl
      (.last (by decide) (by decide) (Tree.writable_of_free rfl)))) rfl
  obtain ⟨located, loaded⟩ := @Settings.load_standard linkedOutput.session linkedOutput.tree ["p"]
    (by decide) (by decide) (by decide) (by decide) absent
  have own : Settings.Own linkedOutput.session linkedOutput.tree (Location.path ["p"])
      (Layout.ofNames (Location.path ["p"]) {}) := by
    constructor
    · intro file found present
      obtain rfl := Except.ok.inj (located.symm.trans found)
      cases absent.symm.trans present
    · intro file _ _ path listed
      have plain : path = Location.path path.parts ∧ linkedOutput.tree.Straight path.parts ∧
          ".." ∉ path.parts ∧ path.parts.any containsNul = false := by
        revert path
        decide
      rw [plain.1]
      exact Tree.resolve_self plain.2.1 plain.2.2.1 plain.2.2.2 _
  have resolved : linkedOutput.session.resolve linkedOutput.tree (Location.path ["p"]) =
      .ok ["p"] := Tree.resolve_self (by decide) (by decide) (by decide) _
  obtain ⟨source, ⟨found, -⟩, spared⟩ :=
    clean_spares_sources loaded (Generation.layoutOf_of_resolve resolved _) own
  have sources : linkedOutput.tree.resolve [] (Location.path ["p", "rs"]) = .ok ["p", "rs"] :=
    Tree.resolve_self (by decide) (by decide) (by decide) _
  obtain rfl := Except.ok.inj (sources.symm.trans found)
  exact spared ["p", "rs", "a.rs"] (by decide) (Tree.holdsLink_eq_false.mp (by decide))

theorem linkedSources_overlap :
    ∃ settings layout source target,
      Settings.load linkedSources.session linkedSources.tree (Location.path ["p"]) = .ok settings ∧
      (Generation.layoutOf (Location.path ["p"]) settings.layout).outcome linkedSources =
        .ok layout ∧
      linkedSources.tree.resolve [] layout.sourceDir = .ok source ∧
      linkedSources.tree.resolve [] layout.modulesDir = .ok target ∧
      target.overlaps source = true := by
  have absent : linkedSources.tree.pathExists [] (Location.path ["p", settingsFileName]) =
      .ok false :=
    Tree.pathExists_of_free (Tree.Leads.walk_eq (.into (by decide) (by decide) rfl
      (.last (by decide) (by decide) (Tree.writable_of_free rfl)))) rfl
  obtain ⟨-, loaded⟩ := @Settings.load_standard linkedSources.session linkedSources.tree ["p"]
    (by decide) (by decide) (by decide) (by decide) absent
  have resolved : linkedSources.session.resolve linkedSources.tree (Location.path ["p"]) =
      .ok ["p"] := Tree.resolve_self (by decide) (by decide) (by decide) _
  have modules : linkedSources.tree.resolve [] (Location.path ["p", "mod"]) = .ok ["p", "mod"] :=
    Tree.resolve_self (by decide) (by decide) (by decide) _
  have sources : linkedSources.tree.resolve [] (Location.path ["p", "rs"]) =
      .ok ["p", "mod", "src"] := by
    have directory : linkedSources.tree.entry? ["p"] = some .directory := by decide
    have linked : linkedSources.tree.entry? ["p", "rs"] = some (.link "mod/src") := by decide
    have further : linkedSources.tree.entry? ["p", "mod"] = some .directory ∧
      linkedSources.tree.entry? ["p", "mod", "src"] = some .directory := by decide
    have noNul : ∀ part ∈ ["p", "rs", "mod", "src"], containsNul part = false := by decide
    have target : Path.ofString "mod/src" = ⟨.here, ["mod", "src"]⟩ := by decide
    have count : linkedSources.tree.linkCount = 1 := by decide
    simp [Tree.resolve, Tree.startOf, Tree.resolveFrom, Path.isAbsolute, noNul, directory, linked,
      further, target, count, Tree.linkStart]
  exact ⟨_, _, _, _, loaded, Generation.layoutOf_of_resolve resolved _, sources, modules, by decide⟩

end FfiBindings
