import FfiBindings.Proofs.Generation.Completed
import FfiBindings.Proofs.Generation.Redo

set_option autoImplicit false

namespace FfiBindings

open ExceptT

namespace Cleanup

section Returning

variable {world : World} {path : Path} (unlinked : world.tree.Unlinked)
  (rooted : path.isAbsolute = true) (clear : ".." ∉ path.parts)
  (short : ∀ part ∈ path.parts, part.utf8ByteSize ≤ nameLimit)

include unlinked rooted clear short

theorem removeFile_returns
    (noDirectory : world.tree.isDirectory world.session.cwd path ≠ .ok true) :
    ∃ removed, (removeFile path).outcome world = .ok removed := by
  obtain ⟨present, asked⟩ := @Tree.leadsTo_of_short world.tree world.session.cwd path unlinked short
    fun _ => true
  replace asked : world.tree.pathExists world.session.cwd path = .ok present := asked
  simp only [removeFile, outcome_bind, Run.pathExists_outcome, Run.pathExists_after, asked]
  cases present with
  | false => exact ⟨[], rfl⟩
  | true =>
    obtain ⟨entry, status⟩ := Tree.pathExists_eq_true.mp asked
    have gone := Tree.unlink_of_status unlinked rooted clear status fun directory =>
      noDirectory (Tree.isDirectory_eq_true.mpr (directory ▸ status))
    simp only [Except.mapError_ok, if_true, outcome_bind, Run.unlink_outcome, gone]
    exact ⟨[path], rfl⟩

theorem removeOutput_returns (named : path.parts ≠ []) :
    ∃ removed, (removeOutput path).outcome world = .ok removed := by
  obtain ⟨directory, asked⟩ := @Tree.leadsTo_of_short world.tree world.session.cwd path unlinked
    short (· == .directory)
  replace asked : world.tree.isDirectory world.session.cwd path = .ok directory := asked
  simp only [removeOutput, outcome_bind, Run.isDirectory_outcome, Run.isDirectory_after, asked]
  cases directory with
  | false => exact removeFile_returns unlinked rooted clear short (by simp [asked])
  | true =>
    have gone := Tree.removeTree_of_directory unlinked rooted clear named asked
    simp only [Except.mapError_ok, if_true, outcome_bind, Run.removeTree_outcome, gone]
    exact ⟨[path], rfl⟩

end Returning

theorem clean_returns {layout : Layout} {world : World} (unlinked : world.tree.Unlinked)
    (direct : layout.Direct)
    (short : ∀ path ∈ layout.outputs, ∀ part ∈ path.parts, part.utf8ByteSize ≤ nameLimit)
    (below : ∀ path ∈ layout.outputs, path.parts ≠ [])
    (index : ∃ content executable,
      world.tree.entry? layout.indexFile.parts = some (.file content executable)) :
    ∃ removed, (clean layout).outcome world = .ok removed := by
  -- Nothing has to be kept here: it is enough that nothing is put anywhere.
  let keep : Location → Bool := fun _ => false
  have links : ∀ place target, world.tree.entry? place = some (.link target) → keep place = false :=
    fun _ _ _ => rfl
  have clear : ∀ path, world.tree.ClearOf world.session.cwd keep path := fun _ _ _ _ _ => rfl
  have modules := removeOutput_spares (clear layout.modulesDir) links (World.spared_self keep world)
  have libraries := removeOutput_spares (clear layout.binDir) links modules
  have stillUnlinked := libraries.unlinked unlinked
  have noDirectory : Tree.isDirectory
      ((removeOutput layout.binDir).after ((removeOutput layout.modulesDir).after world)).tree
      ((removeOutput layout.binDir).after
        ((removeOutput layout.modulesDir).after world)).session.cwd
      layout.indexFile ≠ .ok true := by
    obtain ⟨content, executable, held⟩ := index
    exact Tree.isDirectory_ne_true stillUnlinked direct.absolute.index direct.index
      libraries.tree.fits held
  obtain ⟨first, endedModules⟩ := removeOutput_returns unlinked direct.absolute.modules
    direct.modules (short _ (by simp [Layout.outputs])) (below _ (by simp [Layout.outputs]))
  obtain ⟨second, endedLibraries⟩ := removeOutput_returns (modules.unlinked unlinked)
    direct.absolute.libraries direct.libraries (short _ (by simp [Layout.outputs]))
    (below _ (by simp [Layout.outputs]))
  obtain ⟨third, endedIndex⟩ := removeFile_returns stillUnlinked direct.absolute.index direct.index
    (short _ (by simp [Layout.outputs])) noDirectory
  refine ⟨first ++ second ++ third, ?_⟩
  simp only [clean, outcome_bind, endedModules, endedLibraries, endedIndex, Run.logAll_outcome]
  rfl

end Cleanup

namespace Generation

variable {tools : Tools} {settings : Settings} {layout : Layout} {directory : Path}
  {root : Location} {sources : List SourceFile} {parser : Extraction.SignatureParser}
  {readings : List Reading} {report : Report} {world final : World} {path : Path}
  {place : Location}

/-- A project without links and own templates that keeps its outputs away from its settings file, and no
log file that could grow among them. -/
structure Repeatable (world : World) (directory : Path) (root : Location) (settings : Settings)
    (layout : Layout) (sources : List SourceFile) : Prop
    extends Finds world directory root settings layout sources where
  unlinked : world.tree.Unlinked
  named : world.Named
  silent : world.Silent
  standard : settings.templatesDir = none
  downward : settings.layout.Downward
  spared : world.tree.entry? (root ++ [settingsFileName]) ≠ none →
    ∀ path ∈ layout.outputs, path.location.covers (root ++ [settingsFileName]) = false

namespace Repeatable

variable (project : Repeatable world directory root settings layout sources)

include project

theorem clear : ".." ∉ root :=
  project.toFinds.clear project.unlinked project.named

theorem layout_eq : layout = Layout.ofNames root.path settings.layout :=
  project.toFinds.layout_eq project.unlinked project.named

theorem source : layout.sourceDir.isAbsolute = true ∧ ".." ∉ layout.sourceDir.parts ∧
    root <+: layout.sourceDir.parts :=
  project.toFinds.source project.unlinked project.named project.downward.source

theorem sourceNames : ∀ source ∈ sources, IsModuleName source.moduleName := by
  rw [project.discovered]
  exact fun source member => isModuleName_of_mem_discover project.named.tree member

theorem sourcePath {source : SourceFile} (member : source ∈ sources) :
    source.path.isAbsolute = true ∧ ".." ∉ source.path.parts ∧
      ∀ upper, upper <+: source.path.parts → layout.isInput upper = true := by
  obtain ⟨rooted, upless, -⟩ := project.source
  rw [project.discovered] at member
  obtain ⟨below, clear, path⟩ := path_of_mem_discover project.named.tree member
  rw [path]
  refine ⟨rooted, by simp [upless, clear], fun upper begins => ?_⟩
  exact Layout.isInput_of_overlaps (Location.overlaps_of_covers (Location.covers_iff.mpr begins)
    (Location.covers_append layout.sourceDir.parts below))

theorem forall_outputs {holds : Path → Prop}
    (each : ∀ key : OutputKey, holds (root.path / key.valueIn settings.layout)) :
    ∀ path ∈ layout.outputs, holds path := by
  rw [project.layout_eq]
  exact Layout.forall_outputs.mpr each

theorem direct : layout.Direct := by
  have relative := Settings.load_relative project.accepted
  have upless : ∀ key : OutputKey, ".." ∉ (root.path / key.valueIn settings.layout).parts :=
    fun key =>
      (Path.div_downward project.clear (relative.output key) (project.downward.output key)).2.1
  rw [project.layout_eq]
  exact ⟨Layout.absolute_ofNames root settings.layout, upless .modulesDir, upless .binDir,
    upless .indexFile⟩

theorem separated : LayoutNames.Separated root settings.layout := by
  have straight : Location.steps [] root = root :=
    Location.steps_of_names fun part member up => project.clear (up ▸ member)
  have layouts := Settings.load_separated project.unlinked project.accepted
  rw [straight] at layouts
  exact layouts.resolve_right fun other => other.2 project.project

theorem output : ∀ path ∈ layout.outputs,
    path.parts ≠ [] ∧ Location.overlaps path.parts layout.sourceDir.parts = false := by
  have relative := Settings.load_relative project.accepted
  have downward := project.downward
  have place : ∀ {name : String}, Path.anchorOf name.toList = .here →
      ".." ∉ Path.partsOf name.toList → (root.path / name).parts = LayoutNames.place root name := by
    intro name here upless
    rw [Path.div_parts_of_relative here, LayoutNames.place,
      Location.steps_of_names fun part member up => upless (up ▸ member)]
    rfl
  have source : layout.sourceDir.parts = LayoutNames.place root settings.layout.sourceDir := by
    rw [project.layout_eq]
    exact place relative.source downward.source
  refine project.forall_outputs fun key => ?_
  rw [source, place (relative.output key) (downward.output key)]
  refine ⟨fun empty => ?_, project.separated.apart key⟩
  obtain ⟨above, other⟩ := Location.strictlyCovers_iff.mp (project.separated.output_inside key)
  rw [empty] at above other
  exact other (List.prefix_nil.mp above)

theorem unset (absent : world.tree.entry? (root ++ [settingsFileName]) = none) :
    settings.layout = {} := by
  obtain ⟨file, checked, located, -, read⟩ := Settings.load_cases project.accepted
  rw [Settings.fileFor_of_directory project.project] at located
  obtain rfl := Settings.settingsFile_eq project.unlinked project.clear located
  rcases read with ⟨-, bytes, entries, read, -, -⟩ | ⟨-, rfl⟩
  · obtain ⟨executable, status⟩ := Tree.readBytes_eq_ok.mp read
    have held := (Tree.entry?_of_status project.unlinked status).2
    rw [Run.placeAt_of_isAbsolute _ rfl, Path.location_of_clear, Location.path_parts, absent] at held
    · cases held
    · simpa [settingsFileName] using project.clear
  · rfl

theorem unset_apart (absent : world.tree.entry? (root ++ [settingsFileName]) = none) :
    ∀ path ∈ layout.outputs,
      Location.overlaps path.parts (root ++ [settingsFileName]) = false := by
  refine project.forall_outputs fun key => ?_
  rw [project.unset absent]
  cases key with
  | modulesDir => exact Location.overlaps_siblings root (by decide)
  | binDir => exact Location.overlaps_siblings root (by decide)
  | indexFile => exact Location.overlaps_siblings root (by decide)

theorem isInput_eq (place : Location) :
    layout.isInput place =
      (place.overlaps layout.sourceDir.parts || place == root ++ [settingsFileName]) := by
  rw [Layout.isInput, project.layout_eq]
  rfl

theorem outside (among : path ∈ layout.outputs) (below : path.parts <+: place) :
    layout.isInput place = false := by
  rw [← Location.covers_iff] at below
  rw [project.isInput_eq, Location.overlaps_below (project.output path among).2 below, Bool.false_or,
    beq_eq_false_iff_ne]
  rintro rfl
  -- Without a settings file the layout is the standard one, which has nothing of that name.
  by_cases absent : world.tree.entry? (root ++ [settingsFileName]) = none
  · have clear := project.unset_apart absent path among
    rw [Location.overlaps, below] at clear
    cases clear
  · have clear := project.spared absent path among
    rw [Path.location_of_clear (project.direct.output among).2, below] at clear
    cases clear

theorem settled (among : path ∈ layout.outputs) {lower : Location} (below : path.parts <+: lower)
    (onWay : place <+: lower) (input : layout.isInput place = true) :
    world.tree.entry? place ≠ none := by
  -- The place is above the output, and then it is a directory that the sources or the settings are
  -- in, or it is at or below the output, where nothing is read.
  rcases List.prefix_or_prefix_of_prefix onWay below with above | under
  · rw [project.isInput_eq, Bool.or_eq_true, beq_iff_eq] at input
    rcases input with overlap | rfl
    · rw [Location.overlaps, Bool.or_eq_true] at overlap
      rcases overlap with upper | inside
      · obtain ⟨rooted, upless, -⟩ := project.source
        obtain ⟨-, directory, higher, -⟩ := @Tree.located_of_status world.tree true _ _
          project.unlinked rooted upless _ (Tree.isDirectory_eq_true.mp project.sourced)
        have inside := Tree.inside_iff.mpr ⟨higher, directory⟩
        rw [inside place (Location.covers_iff.mp upper)]
        simp
      · have overlap := Location.overlaps_of_covers (Location.covers_iff.mpr List.prefix_rfl)
          (Location.covers_iff.mpr ((Location.covers_iff.mp inside).trans above))
        rw [(project.output path among).2] at overlap
        cases overlap
    · intro absent
      have clear := project.unset_apart absent path among
      rw [Location.overlaps, Location.covers_iff.mpr above, Bool.or_true] at clear
      cases clear
  · rw [project.outside among under] at input
    cases input

section Repeating

variable (done : Done tools settings layout sources world final parser readings report)

include done

theorem moduleNames : ∀ bindings ∈ report.modules, IsModuleName bindings.name :=
  done.named project.sourceNames

theorem sameInputs : Tree.SameAt layout.isInput world.tree final.tree := by
  have direct := project.direct
  have names := project.moduleNames done
  refine (done.edits.tree project.unlinked project.silent).1.sameAt ?_ ?_
  · rintro place ⟨path, file, rfl⟩
    obtain ⟨-, upless, output, among, below⟩ := direct.file names file
    rw [Path.location_of_clear upless]
    exact project.outside among below
  · rintro place (onWay | ⟨path, file, onWay⟩) input
    · have above := onWay.prefix_parts direct.absolute.modules direct.modules
      exact project.settled (by simp [Layout.outputs]) List.prefix_rfl above input
    · obtain ⟨rooted, upless, output, among, below⟩ := direct.file names file
      have above := onWay.prefix_parts rooted fun up => upless (List.dropLast_subset _ up)
      exact project.settled among below (above.trans (List.dropLast_prefix _)) input

theorem written (file : path ∈ layout.files report.modules) :
    final.tree.Written layout.isInput path := by
  have direct := project.direct
  have names := project.moduleNames done
  obtain ⟨proper, above, held⟩ :=
    done.placed (done.edits.unlinked project.unlinked) direct names file
  obtain ⟨-, -, output, among, below⟩ := direct.file names file
  exact ⟨proper, above, held, project.outside among below⟩

theorem repeats {reading : Reading} (member : reading ∈ readings) :
    reading.Repeats layout.isInput final layout parser := by
  have finalUnlinked := done.edits.unlinked project.unlinked
  have names := project.moduleNames done
  have discovered : reading.source ∈ sources := done.listed ▸ List.mem_map_of_mem member
  obtain ⟨sourceRooted, sourceClear, kept⟩ := project.sourcePath discovered
  -- A source that were written over would be an output that is read.
  have elsewhere : ¬ layout.IsFile report.modules reading.source.path.location := by
    rintro ⟨file, listed, same⟩
    have outside := (project.written done listed).outside
    rw [Path.location_of_clear sourceClear,
      Path.location_of_clear (project.direct.file names listed).2.1] at same
    rw [← same, kept _ List.prefix_rfl] at outside
    cases outside
  constructor
  · intro world spared
    rw [spared.session, spared.tree.same.readBytes finalUnlinked sourceRooted sourceClear kept]
    exact done.read reading member sourceRooted elsewhere
  · intro exporting
    apply project.written done
    apply Layout.mem_files_of_mem
    rw [done.reported]
    exact mem_modules_iff.mpr ⟨reading, member, exporting, rfl⟩

theorem finds {start : World} (left : World.Spared layout.isInput final start) :
    Finds start directory root settings layout sources := by
  refine project.toFinds.congr project.unlinked project.named project.downward ?_ ?_ ?_
  · exact left.session.trans (done.edits.session project.unlinked)
  · exact left.unlinked (done.edits.unlinked project.unlinked)
  · exact IsTrans.trans _ _ _ (project.sameInputs done) left.tree.same

theorem redone {start : World} (left : World.Spared layout.isInput final start) :
    (generate tools true directory).outcome start = .ok report ∧
      ∃ again others, Done tools settings layout sources start
        ((generate tools true directory).after start) again others report := by
  have finalUnlinked := done.edits.unlinked project.unlinked
  have finalSilent := (done.edits.tree project.unlinked project.silent).2
  have finds : ∀ world, World.Spared layout.isInput final world →
      Finds world directory root settings layout (readings.map (·.source)) := by
    intro world left
    rw [done.listed]
    exact project.finds done left
  have parsed := (findParser_outcome tools settings final _).trans done.parsed
  have gives := generate_gives finalUnlinked finalSilent project.standard finds parsed done.proper
    done.inside (fun _ => project.repeats done) rfl done.distinct
    (project.written done List.mem_cons_self)
  rw [← done.reported] at gives
  obtain ⟨returned, -⟩ := gives start left
  refine ⟨returned, generate_done (project.finds done left) (left.unlinked finalUnlinked)
    (left.silent finalSilent) project.direct project.sourceNames project.standard returned rfl⟩

theorem clearOf : ∀ path ∈ layout.outputs,
    final.tree.ClearOf final.session.cwd layout.isInput path := by
  intro path among place located lower covered
  obtain ⟨rooted, upless⟩ := project.direct.output among
  have finalUnlinked := done.edits.unlinked project.unlinked
  obtain ⟨rfl, -, -⟩ := (Tree.locate_eq_ok_iff finalUnlinked rooted upless).mp located
  exact project.outside among (Location.covers_iff.mp covered)

theorem noLinks : ∀ place target, final.tree.entry? place = some (.link target) →
    layout.isInput place = false :=
  fun place target linked =>
    absurd linked (done.edits.unlinked project.unlinked place target)

theorem cleaned : World.Spared layout.isInput final ((Cleanup.clean layout).after final) := by
  obtain ⟨cleared, records, spared, after⟩ :=
    Cleanup.clean_spares (project.clearOf done) (project.noLinks done)
  rw [after]
  exact spared.foldl_log (done.edits.tree project.unlinked project.silent).2 records

-- A name for the libraries that is too long stops cleaning, though there can be nothing of that
-- name.
theorem cleaning_stops {name : String} (libraries : layout.binDir.parts = root ++ [name])
    (plain : Tree.containsNulPart layout.binDir = false) (long : nameLimit < name.utf8ByteSize) :
    (Cleanup.clean layout).outcome final =
      .error (.file (Tree.refused layout.binDir .nameTooLong)) := by
  have direct := project.direct
  have finalUnlinked := done.edits.unlinked project.unlinked
  have among : layout.modulesDir ∈ layout.outputs := by simp [Layout.outputs]
  obtain ⟨first, ended⟩ := Cleanup.removeOutput_returns finalUnlinked direct.absolute.modules
    direct.modules done.proper.short (project.output _ among).1
  have spared := Cleanup.removeOutput_spares (project.clearOf done _ among) (project.noLinks done)
    (World.spared_self _ final)
  have same := IsTrans.trans _ _ _ (project.sameInputs done) spared.tree.same
  -- The project directory is above the sources, so it is still there when the libraries come up.
  have inside : Tree.Inside ((Cleanup.removeOutput layout.modulesDir).after final).tree root := by
    obtain ⟨-, directory, higher, -⟩ := @Tree.located_of_status world.tree true _ root.path
      project.unlinked rfl project.clear _ (Tree.isDirectory_eq_true.mp project.project)
    intro upper begins
    rw [same.entry_eq]
    · exact Tree.inside_iff.mpr ⟨higher, directory⟩ upper begins
    · exact Layout.isInput_of_prefix (begins.trans project.source.2.2)
  have asked : ∀ cwd, Tree.isDirectory ((Cleanup.removeOutput layout.modulesDir).after final).tree
      cwd layout.binDir = .error (Tree.refused layout.binDir .nameTooLong) := by
    intro cwd
    exact Tree.leadsTo_of_long direct.absolute.libraries plain libraries project.clear inside long _
  have stopped : (Cleanup.removeOutput layout.binDir).outcome
      ((Cleanup.removeOutput layout.modulesDir).after final) =
      .error (.file (Tree.refused layout.binDir .nameTooLong)) := by
    simp only [Cleanup.removeOutput.eq_1 layout.binDir, outcome_bind, Run.isDirectory_outcome,
      asked]
    rfl
  simp only [Cleanup.clean, outcome_bind, ended, stopped]

end Repeating

end Repeatable

end Generation

open Generation

/-- A second generation comes to the same report and changes no byte. After cleaning it comes to the
same report and the same files as well, whatever cleaning came to: a name for the libraries that is too
long keeps it from coming to its end. -/
theorem regeneration_stable {tools : Tools} {directory : Path} {root : Location}
    {settings : Settings} {report : Report} {world final cleaned : World}
    (unlinked : world.tree.Unlinked) (named : world.Named) (silent : world.Silent)
    (resolved : world.session.resolve world.tree directory = .ok root)
    (accepted : Settings.load world.session world.tree root.path = .ok settings)
    (standard : settings.templatesDir = none) (downward : settings.layout.Downward)
    (spared : world.tree.entry? (root ++ [settingsFileName]) ≠ none →
      ∀ path ∈ report.layout.outputs, path.location.covers (root ++ [settingsFileName]) = false)
    (returned : (generate tools true directory).outcome world = .ok report)
    (final_eq : final = (generate tools true directory).after world)
    (cleaned_eq : cleaned = (Cleanup.clean report.layout).after final) :
    ((generate tools true directory).outcome final = .ok report ∧
      Tree.SameBytes final.tree ((generate tools true directory).after final).tree) ∧
    ((∀ part ∈ report.layout.binDir.parts, part.utf8ByteSize ≤ nameLimit) →
      ∃ removed, (Cleanup.clean report.layout).outcome final = .ok removed) ∧
    (∀ name, report.layout.binDir.parts = root ++ [name] →
      Tree.containsNulPart report.layout.binDir = false → nameLimit < name.utf8ByteSize →
      (Cleanup.clean report.layout).outcome final =
        .error (.file (Tree.refused report.layout.binDir .nameTooLong))) ∧
    (generate tools true directory).outcome cleaned = .ok report ∧
    ∀ path ∈ report.layout.files report.modules, ∃ bytes,
      final.tree.readBytes final.session.cwd path = .ok bytes ∧
      ((generate tools true directory).after cleaned).tree.readBytes
        ((generate tools true directory).after cleaned).session.cwd path = .ok bytes := by
  obtain ⟨-, -, sources, -, -, -, -, present, laidOut, sourced, -, discovered, -⟩ :=
    generate_steps resolved accepted returned
  have project : Repeatable world directory root settings report.layout sources :=
    { resolved, project := present, accepted, laidOut, sourced, discovered, unlinked, named, silent,
      standard, downward, spared }
  obtain ⟨parser, readings, done⟩ :=
    generate_done project.toFinds unlinked silent project.direct project.sourceNames standard
      returned final_eq
  have finalUnlinked := done.edits.unlinked unlinked
  have moduleNames := project.moduleNames done
  obtain ⟨again, _, _, doneAgain⟩ := project.redone done (World.spared_self _ final)
  obtain ⟨anew, _, _, doneAnew⟩ := project.redone done (cleaned_eq ▸ project.cleaned done)
  refine ⟨⟨again, ?_⟩, fun short => ?_, fun name libraries plain long => ?_, anew,
    fun path file => ?_⟩
  · exact done.sameBytes finalUnlinked project.direct moduleNames
      (done.edits.tree unlinked silent).2 doneAgain
  · obtain ⟨index, -, held⟩ :=
      done.placed finalUnlinked project.direct moduleNames List.mem_cons_self
    refine Cleanup.clean_returns finalUnlinked project.direct ?_
      (fun path among => (project.output path among).1) held
    simp only [Layout.outputs, List.forall_mem_cons, List.not_mem_nil, false_imp_iff, implies_true,
      and_true]
    exact ⟨done.proper.short, short, index.short⟩
  · exact project.cleaning_stops done libraries plain long
  · obtain ⟨bytes, -, read, readAnew⟩ := done.agrees doneAnew path file
    exact ⟨bytes, read, readAnew⟩

theorem smallProject_regenerated :
    (generate smallTools true (Location.path ["p"])).outcome
        ((Cleanup.clean smallLayout).after
          ((generate smallTools true (Location.path ["p"])).after smallProject)) =
      .ok smallReport := by
  have silent : smallProject.Silent := by
    rintro place ⟨handlers, present, -⟩
    cases present
  have downward : LayoutNames.Downward {} := ⟨by decide, by rintro (_ | _ | _) <;> decide⟩
  have absent : smallProject.tree.entry? (["p"] ++ [settingsFileName]) = none := by decide
  exact (regeneration_stable smallProject_unlinked smallProject_named silent smallProject_resolve
    smallProject_load rfl downward (fun present => absurd absent present)
    (smallProject_yields smallProject ⟨rfl, rfl, rfl⟩).1 rfl rfl).2.2.2.1

end FfiBindings
