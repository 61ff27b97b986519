import FfiBindings.Program
import FfiBindings.Proofs.Compiler
import FfiBindings.Proofs.Settings.File
import FfiBindings.Proofs.Tree.Growth

set_option autoImplicit false

namespace FfiBindings

open ExceptT

theorem Path.isAbsolute_div {base : Path} (rooted : base.isAbsolute = true) (text : String) :
    (base / text).isAbsolute = true := by
  simpa [Path.isAbsolute] using Path.div_anchor base text (by simpa [Path.isAbsolute] using rooted)

namespace Layout

/-- The places that generating and cleaning work at. -/
def IsOutput (layout : Layout) (location : Location) : Prop :=
  layout.modulesDir.location.covers location = true ∨
    layout.binDir.location.covers location = true ∨ location = layout.indexFile.location

/-- A layout whose outputs do not depend on where one stands. -/
structure Absolute (layout : Layout) : Prop where
  modules : layout.modulesDir.isAbsolute = true
  libraries : layout.binDir.isAbsolute = true
  index : layout.indexFile.isAbsolute = true

theorem absolute_ofNames (root : Location) (names : LayoutNames) :
    (ofNames root.path names).Absolute where
  modules := Path.isAbsolute_div rfl _
  libraries := Path.isAbsolute_div rfl _
  index := Path.isAbsolute_div rfl _

theorem not_isOutput_of_source {root location : Location} {names : LayoutNames}
    (straight : root.path.location = root) (relative : names.Relative)
    (separated : names.Separated root)
    (inside : (ofNames root.path names).sourceDir.location.covers location = true) :
    ¬ (ofNames root.path names).IsOutput location := by
  rw [ofNames, Path.location_div relative.source, straight] at inside
  have apart : ∀ key : OutputKey,
      (root.path / key.valueIn names).location.covers location ≠ true := by
    intro key above
    rw [Path.location_div (relative.output key), straight] at above
    have overlap := Location.overlaps_of_covers above inside
    exact Bool.false_ne_true ((separated.apart key).symm.trans overlap)
  rintro (modules | libraries | index)
  · exact apart .modulesDir modules
  · exact apart .binDir libraries
  · refine apart .indexFile ?_
    rw [index]
    exact Location.covers_iff.mpr List.prefix_rfl

end Layout

/-- A compile step that changes nothing outside the directory for libraries. -/
def CompileStep.Contained (step : CompileStep) : Prop :=
  ∀ layout sources world, Compiler.Native.IsTarget layout.binDir →
    (∀ source ∈ sources, IsModuleName source.moduleName) →
    World.Frame (fun location => layout.binDir.location.covers location = true) world
      ((step layout sources).after world)

/-- Tools whose runner creates files beside its output only, and whose own compiler, if there is
one, keeps to the directory for libraries. -/
structure Tools.Contained (tools : Tools) : Prop where
  runner : tools.runner.CreatesBesideOutput
  compiler : ∀ step, tools.compiler = some step → step.Contained

namespace Template

theorem findTemplate?_after (name : String) (places : List Place) (world : World) :
    (findTemplate? name places).after world = world := by
  induction places with
  | nil => rfl
  | cons place others ih =>
    cases place with
    | standard => rfl
    | directory directory =>
      simp only [findTemplate?, after_bind, outcome_get, after_get]
      split
      · simp only [after_bind, Run.ask_outcome, Run.ask_after]
        split
        · split <;> rfl
        · rfl
      · exact ih

@[simp] theorem ownTemplate?_after (directory : Option Path) (name : String) (world : World) :
    (ownTemplate? directory name).after world = world :=
  findTemplate?_after name _ world

@[simp] theorem rendered_after (context : Context) (source : List Char) (world : World) :
    (rendered context source).after world = world := by
  unfold rendered
  cases renderText context source <;> rfl

end Template

namespace Emission

@[simp] theorem bindingText_after (emission : Emission) (bindings : BindingModule) (world : World) :
    (emission.bindingText bindings).after world = world := by
  simp only [bindingText, after_bind, Template.ownTemplate?_after]
  split
  · next own _ => cases own <;> simp
  · rfl

@[simp] theorem indexText_after (emission : Emission) (typeFilter : Bool) (index : ExportIndex)
    (world : World) :
    (emission.indexText typeFilter index).after world = (Run.logAll index.records).after world := by
  simp only [indexText, after_bind, Run.logAll_outcome, Template.ownTemplate?_after]
  split
  · next own _ => cases own <;> simp
  · rfl

theorem writeModule_frame (emission : Emission) (absolute : emission.layout.Absolute)
    {bindings : BindingModule} (named : IsModuleName bindings.name) (world : World) :
    World.Frame emission.layout.IsOutput world ((emission.writeModule bindings).after world) := by
  have proper : IsExtension ".ts" := ⟨by decide, 't', by decide, by decide⟩
  obtain ⟨directories, stem, -, below⟩ := named.fileBelow emission.layout.modulesDir
  have inside : emission.layout.IsOutput (emission.layout.modulePath bindings.name).location := by
    refine .inl ?_
    rw [Layout.modulePath, (below proper).location]
    exact Location.covers_append _ _
  unfold writeModule
  refine rel_after_bind (Run.makeDirectories_frame _ _ world) fun _ _ => ?_
  refine rel_after_bind (by simpa using World.Frame.refl _ _) fun text _ => ?_
  refine rel_after_bind (Run.write_frame (Path.isAbsolute_div absolute.modules _) inside text _)
    fun _ _ => ?_
  exact rel_after_bind (World.log_frame _ _ _) fun _ _ => World.Frame.refl _ _

-- The last part of writing the index: its text goes to its file.
def placeIndex (emission : Emission) (index : ExportIndex) (text : String) : Run Path := do
  let target := emission.layout.indexFile
  Run.makeDirectories target.parent
  Run.write target text
  Run.log (wroteIndexRecord target index.size)
  return target

theorem writeIndex_eq (emission : Emission) (typeFilter : Bool) (index : ExportIndex) :
    emission.writeIndex typeFilter index = (do
      let text ← emission.indexText typeFilter index
      if ← Run.pathExists emission.layout.indexFile then
        Run.unlink emission.layout.indexFile
      emission.placeIndex index text) := rfl

theorem placeIndex_frame (emission : Emission) (absolute : emission.layout.Absolute)
    (index : ExportIndex) (text : String) (world : World) :
    World.Frame emission.layout.IsOutput world ((emission.placeIndex index text).after world) := by
  unfold placeIndex
  refine rel_after_bind (Run.makeDirectories_frame _ _ world) fun _ _ => ?_
  refine rel_after_bind (Run.write_frame absolute.index (.inr (.inr rfl)) text _) fun _ _ => ?_
  exact rel_after_bind (World.log_frame _ _ _) fun _ _ => World.Frame.refl _ _

theorem writeIndex_frame (emission : Emission) (absolute : emission.layout.Absolute)
    (typeFilter : Bool) (index : ExportIndex) (world : World) :
    World.Frame emission.layout.IsOutput world
      ((emission.writeIndex typeFilter index).after world) := by
  have placed := placeIndex_frame emission absolute index
  rw [writeIndex_eq]
  refine rel_after_bind ?_ fun text _ => ?_
  · rw [indexText_after]
    exact Run.logAll_frame _ _ world
  refine rel_after_bind (by simpa using World.Frame.refl _ _) fun present _ => ?_
  cases present
  · exact placed text _
  · exact rel_after_bind (Run.unlink_frame absolute.index (.inr (.inr rfl)) _)
      fun _ _ => placed text _

end Emission

namespace Generation

variable {tools : Tools} {settings : Settings} {layout : Layout}

theorem moduleOf?_name {parser : Extraction.SignatureParser} {source : SourceFile}
    {bytes : Text.Bytes} {bindings : BindingModule} {records : List Log.Record}
    (found : moduleOf? parser source bytes = some (bindings, records)) :
    bindings.name = source.moduleName := by
  unfold moduleOf? at found
  split at found
  · cases found
  · cases found
    rfl

theorem addToIndex_after (layout : Layout) (bindings : BindingModule) (index : ExportIndex)
    (world : World) : (addToIndex layout bindings index).after world = world := by
  unfold addToIndex
  split <;> rfl

theorem processSource_frame (emission : Emission) (absolute : emission.layout.Absolute)
    (parser : Extraction.SignatureParser) (progress : Progress) {source : SourceFile}
    (named : IsModuleName source.moduleName) (world : World) :
    World.Frame emission.layout.IsOutput world
      ((processSource emission parser progress source).after world) := by
  unfold processSource
  refine rel_after_bind (World.Frame.refl _ _) fun here _ => ?_
  refine rel_after_bind (by simpa using World.Frame.refl _ _) fun bytes _ => ?_
  split
  · exact rel_after_bind (World.log_frame _ _ _) fun _ _ => World.Frame.refl _ _
  · next bindings records found =>
    rw [← moduleOf?_name found] at named
    refine rel_after_bind (Run.logAll_frame _ _ _) fun _ _ => ?_
    refine rel_after_bind (Emission.writeModule_frame emission absolute named _) fun _ _ => ?_
    refine rel_after_bind ?_ fun _ _ => World.Frame.refl _ _
    rw [addToIndex_after]
    exact World.Frame.refl _ _

theorem processAll_frame (emission : Emission) (absolute : emission.layout.Absolute)
    (parser : Extraction.SignatureParser) (progress : Progress) {sources : List SourceFile}
    (named : ∀ source ∈ sources, IsModuleName source.moduleName) (world : World) :
    World.Frame emission.layout.IsOutput world
      ((processAll emission parser progress sources).after world) := by
  induction sources generalizing progress world with
  | nil => exact World.Frame.refl _ world
  | cons source rest ih =>
    rw [List.forall_mem_cons] at named
    unfold processAll
    exact rel_after_bind (processSource_frame emission absolute parser progress named.1 world)
      fun progress _ => ih progress named.2 _

theorem artifactsOf_frame (contained : tools.Contained) (skipCompile : Bool)
    (target : Compiler.Native.IsTarget layout.binDir) {sources : List SourceFile}
    (named : ∀ source ∈ sources, IsModuleName source.moduleName) (world : World) :
    World.Frame layout.IsOutput world
      ((artifactsOf tools settings skipCompile layout sources).after world) := by
  have compiled : (compileStep tools settings).Contained := by
    -- A compiler of the tools' own is contained by assumption, the native one by what it does.
    cases given : tools.compiler with
    | some step =>
      simp only [compileStep, given, Option.getD_some]
      exact contained.compiler step given
    | none =>
      simp only [compileStep, given, Option.getD_none]
      generalize made : Compiler.Native.ofSettings settings.compiler tools.platform tools.runner =
        compiler
      have confined : compiler.runner.CreatesBesideOutput := by
        rw [← made]
        exact contained.runner
      have proper : IsExtension ("." ++ compiler.suffix) := by
        rw [← made]
        exact Compiler.isExtension_librarySuffix tools.platform
      intro layout sources world target named
      exact Compiler.Native.compile_frame confined proper target sources named world
  unfold artifactsOf
  split
  · exact World.Frame.refl _ world
  · exact (compiled layout sources world target named).mono fun _ inside => .inr (.inl inside)

theorem findParser_after (tools : Tools) (settings : Settings) (world : World) :
    (findParser tools settings).after world = world := by
  unfold findParser
  split
  · rfl
  · split <;> rfl

theorem layoutOf_after (directory : Path) (names : LayoutNames) (world : World) :
    (layoutOf directory names).after world = world := by
  simp only [layoutOf, after_bind, Run.resolve_after]
  split <;> rfl

end Generation

structure World.Named (world : World) : Prop where
  tree : world.tree.Named
  cwd : ∀ part ∈ world.session.cwd, IsName part

variable {world : World} {directory : Path} {root : Location} {settings : Settings}

theorem Session.resolve_straight (unlinked : world.tree.Unlinked) (named : world.Named)
    (resolved : world.session.resolve world.tree directory = .ok root) :
    root.path.location = root := by
  obtain ⟨path, -, found⟩ := Except.bind_eq_ok.mp resolved
  have start : ".." ∉ Tree.startOf path world.session.cwd := by
    unfold Tree.startOf
    split
    · exact List.not_mem_nil
    · exact fun up => (named.cwd _ up).2 rfl
  have clear : ".." ∉ root := by
    rw [Tree.resolve_eq_steps unlinked found]
    exact Location.notMem_steps start
  exact Location.steps_of_names fun part member up => clear (up ▸ member)

theorem Generation.layoutOf_of_resolve
    (resolved : world.session.resolve world.tree directory = .ok root) (names : LayoutNames) :
    (layoutOf directory names).outcome world = .ok (Layout.ofNames root.path names) := by
  simp only [layoutOf, outcome_bind, Run.resolve_outcome, resolved]
  rfl

theorem Generation.layoutOf_eq_ok (unlinked : world.tree.Unlinked)
    (straight : root.path.location = root) {names : LayoutNames} {layout : Layout}
    (found : (layoutOf root.path names).outcome world = .ok layout) :
    layout = Layout.ofNames root.path names := by
  obtain ⟨place, resolved, made, -⟩ := outcome_bind_eq_ok found
  rw [Run.resolve_outcome, Except.mapError_eq_ok] at resolved
  obtain ⟨path, expanded, resolved⟩ := Except.bind_eq_ok.mp resolved
  cases expanded
  have place_eq : place = root := (Tree.resolve_eq_steps unlinked resolved).trans straight
  rw [place_eq] at made
  exact (Except.ok.inj made).symm

theorem Layout.isTarget_ofNames (unlinked : world.tree.Unlinked) (named : world.Named)
    (straight : root.path.location = root) {names : LayoutNames} (relative : names.Relative)
    (present : world.tree.isDirectory world.session.cwd root.path = .ok true) :
    Compiler.Native.IsTarget (ofNames root.path names).binDir := by
  -- The root was found in the tree, so it is made of the tree's names.
  have held := (Tree.entry?_of_status unlinked (Tree.isDirectory_eq_true.mp present)).2
  rw [Run.placeAt_of_isAbsolute _ rfl, straight] at held
  have spelled : ∀ part ∈ root, IsComponent part := by
    intro part member
    have inside : root ≠ [] := List.ne_nil_of_mem member
    exact (named.tree _ (Tree.mem_entries_of_found inside held) part member).1
  have libraries : Path.anchorOf names.binDir.toList = .here := relative.output .binDir
  constructor
  · change (root.path.join (Path.ofString names.binDir)).anchor = .root
    simp [Path.join, Path.isAbsolute, Path.ofString, libraries]
  · intro part member
    rw [ofNames, Path.div_parts_of_relative libraries] at member
    rcases List.mem_append.mp member with above | below
    · exact spelled part above
    · exact Path.mem_partsOf_isComponent below

theorem generate_frame {tools : Tools} (contained : tools.Contained) (skipCompile : Bool)
    (named : world.Named) (resolved : world.session.resolve world.tree directory = .ok root)
    (accepted : Settings.load world.session world.tree root.path = .ok settings) :
    World.Frame (Layout.ofNames root.path settings.layout).IsOutput world
      ((generate tools skipCompile directory).after world) := by
  intro unlinked
  have straight := Session.resolve_straight unlinked named resolved
  have relative := Settings.load_relative accepted
  have absolute := Layout.absolute_ofNames root settings.layout
  suffices frame : World.Frame (Layout.ofNames root.path settings.layout).IsOutput world
      ((generate tools skipCompile directory).after world) from frame unlinked
  unfold generate
  -- Until the sources are counted the run only asks.
  refine rel_after_bind (by simpa using World.Frame.refl _ _) fun place found => ?_
  rw [Run.resolve_outcome, resolved] at found
  cases found
  rw [Run.resolve_after]
  refine rel_after_bind (by simpa using World.Frame.refl _ _) fun present asked => ?_
  rw [Run.isDirectory_outcome, Except.mapError_eq_ok] at asked
  rw [Run.isDirectory_after]
  cases present
  · exact World.Frame.refl _ world
  have target := Layout.isTarget_ofNames unlinked named straight relative asked
  refine rel_after_bind (by simpa using World.Frame.refl _ _) fun read loaded => ?_
  rw [Run.loadSettings_outcome, accepted] at loaded
  cases loaded
  rw [Run.loadSettings_after]
  refine rel_after_bind ?_ fun layout laidOut => ?_
  · rw [Generation.layoutOf_after]
    exact World.Frame.refl _ world
  obtain rfl := Generation.layoutOf_eq_ok unlinked straight laidOut
  rw [Generation.layoutOf_after]
  refine rel_after_bind (by simpa using World.Frame.refl _ _) fun sourced _ => ?_
  rw [Run.isDirectory_after]
  cases sourced
  · exact World.Frame.refl _ world
  refine rel_after_bind (World.Frame.refl _ world) fun state got => ?_
  cases got
  have modules : ∀ source ∈ discover world.tree (Layout.ofNames root.path settings.layout).sourceDir
      settings.excludePaths, IsModuleName source.moduleName :=
    fun source member => isModuleName_of_mem_discover named.tree member
  refine rel_after_bind (World.log_frame _ _ _) fun _ _ => ?_
  refine rel_after_bind (Generation.artifactsOf_frame contained skipCompile target modules _)
    fun artifacts _ => ?_
  refine rel_after_bind ?_ fun parser _ => ?_
  · rw [Generation.findParser_after]
    exact World.Frame.refl _ _
  refine rel_after_bind (Run.makeDirectories_frame _ _ _) fun _ _ => ?_
  refine rel_after_bind (Generation.processAll_frame ⟨_, _, _⟩ absolute parser {} modules _)
    fun progress _ => ?_
  refine rel_after_bind (Emission.writeIndex_frame ⟨_, _, _⟩ absolute true progress.index _)
    fun index _ => ?_
  exact rel_after_bind (World.log_frame _ _ _) fun _ _ => World.Frame.refl _ _

theorem generate_after_of_noProject (tools : Tools) (skipCompile : Bool)
    (resolved : world.session.resolve world.tree directory = .ok root)
    (absent : world.tree.isDirectory world.session.cwd root.path ≠ .ok true) :
    (generate tools skipCompile directory).after world = world := by
  simp only [generate, after_bind, Run.resolve_outcome, resolved, Run.resolve_after,
    Except.mapError_ok, Run.isDirectory_outcome, Run.isDirectory_after]
  cases asked : world.tree.isDirectory world.session.cwd root.path with
  | error error => rfl
  | ok present =>
    cases present with
    | false => rfl
    | true => exact absurd asked absent

namespace Cleanup

variable {touched : Location → Prop} {path : Path}

theorem removeFile_frame (rooted : path.isAbsolute = true) (inside : touched path.location)
    (world : World) : World.Frame touched world ((removeFile path).after world) := by
  unfold removeFile
  refine rel_after_bind (by simpa using World.Frame.refl _ _) fun present _ => ?_
  cases present
  · exact World.Frame.refl _ _
  · exact rel_after_bind (Run.unlink_frame rooted inside _) fun _ _ => World.Frame.refl _ _

theorem removeOutput_frame (rooted : path.isAbsolute = true)
    (inside : ∀ location, path.location.covers location = true → touched location)
    (world : World) : World.Frame touched world ((removeOutput path).after world) := by
  unfold removeOutput
  refine rel_after_bind (by simpa using World.Frame.refl _ _) fun directory _ => ?_
  cases directory
  · exact removeFile_frame rooted (inside _ (Location.covers_iff.mpr List.prefix_rfl)) _
  · exact rel_after_bind (Run.removeTree_frame rooted inside _) fun _ _ => World.Frame.refl _ _

theorem clean_frame {layout : Layout} (absolute : layout.Absolute) (world : World) :
    World.Frame layout.IsOutput world ((clean layout).after world) := by
  unfold clean
  refine rel_after_bind (removeOutput_frame absolute.modules (fun _ below => .inl below) _)
    fun _ _ => ?_
  refine rel_after_bind (removeOutput_frame absolute.libraries (fun _ below => .inr (.inl below)) _)
    fun _ _ => ?_
  refine rel_after_bind (removeFile_frame absolute.index (.inr (.inr rfl)) _) fun _ _ => ?_
  exact rel_after_bind (Run.logAll_frame _ _ _) fun _ _ => World.Frame.refl _ _

theorem removeFile_of_absent (absent : world.tree.pathExists world.session.cwd path ≠ .ok true) :
    (removeFile path).after world = world ∧
      ∀ removed, (removeFile path).outcome world = .ok removed → removed = [] := by
  simp only [removeFile, after_bind, outcome_bind, Run.pathExists_outcome, Run.pathExists_after]
  cases asked : world.tree.pathExists world.session.cwd path with
  | error error => exact ⟨rfl, fun _ ended => nomatch ended⟩
  | ok present =>
    cases present with
    | false => exact ⟨rfl, fun _ ended => (Except.ok.inj ended).symm⟩
    | true => exact absurd asked absent

theorem removeOutput_of_absent
    (absent : world.tree.pathExists world.session.cwd path ≠ .ok true) :
    (removeOutput path).after world = world ∧
      ∀ removed, (removeOutput path).outcome world = .ok removed → removed = [] := by
  simp only [removeOutput, after_bind, outcome_bind, Run.isDirectory_outcome,
    Run.isDirectory_after]
  cases asked : world.tree.isDirectory world.session.cwd path with
  | error error => exact ⟨rfl, fun _ ended => nomatch ended⟩
  | ok directory =>
    cases directory with
    | false => exact removeFile_of_absent absent
    | true => exact absurd (Tree.pathExists_of_isDirectory asked) absent

theorem clean_of_absent {layout : Layout}
    (absent : ∀ path ∈ [layout.modulesDir, layout.binDir, layout.indexFile],
      world.tree.pathExists world.session.cwd path ≠ .ok true) :
    (clean layout).after world = world := by
  obtain ⟨modules, noModules⟩ := removeOutput_of_absent (absent layout.modulesDir (by simp))
  obtain ⟨libraries, noLibraries⟩ := removeOutput_of_absent (absent layout.binDir (by simp))
  obtain ⟨index, noIndex⟩ := removeFile_of_absent (absent layout.indexFile (by simp))
  unfold clean
  rw [after_bind, modules]
  split
  · next removed ended =>
    obtain rfl := noModules removed ended
    rw [after_bind, libraries]
    split
    · next removed ended =>
      obtain rfl := noLibraries removed ended
      rw [after_bind, index]
      split
      · next removed ended =>
        obtain rfl := noIndex removed ended
        rfl
      · rfl
    · rfl
  · rfl

end Cleanup

theorem Program.cleanProject_after (unlinked : world.tree.Unlinked)
    (straight : root.path.location = root)
    (resolved : world.session.resolve world.tree directory = .ok root)
    (accepted : Settings.load world.session world.tree root.path = .ok settings) :
    (cleanProject directory).after world = world ∨
      (cleanProject directory).after world =
        (Cleanup.clean (Layout.ofNames root.path settings.layout)).after world := by
  simp only [cleanProject, after_bind, Run.resolve_outcome, resolved, Run.resolve_after,
    Except.mapError_ok, Run.loadSettings_outcome, accepted, Run.loadSettings_after,
    Generation.layoutOf_after]
  split
  · next layout laidOut =>
    obtain rfl := Generation.layoutOf_eq_ok unlinked straight laidOut
    refine .inr ?_
    split <;> rfl
  · exact .inl rfl

theorem LayoutNames.Separated.partsOf_ne_nil {names : LayoutNames}
    (separated : names.Separated root) (key : OutputKey) : Path.partsOf (key.valueIn names).toList ≠ [] := by
  intro empty
  have inside := Location.strictlyCovers_iff.mp (separated.output_inside key)
  exact inside.2 (by simp [place, empty])

/-- Whatever a run on a project comes to, a file that is no output is as it was, and so is every
file of the sources. Only the log file may have grown. -/
theorem files_outside_outputs {tools : Tools} (contained : tools.Contained)
    (unlinked : world.tree.Unlinked) (named : world.Named)
    (resolved : world.session.resolve world.tree directory = .ok root)
    (accepted : Settings.load world.session world.tree root.path = .ok settings)
    {skipCompile : Bool} {final : World}
    (ran : final = (generate tools skipCompile directory).after world ∨
      final = (Program.cleanProject directory).after world)
    {location : Location}
    (outside : ¬ (Layout.ofNames root.path settings.layout).IsOutput location ∨
      (Layout.ofNames root.path settings.layout).sourceDir.location.covers location = true) :
    (∀ content executable, final.tree.entry? location = some (.file content executable) ↔
      world.tree.entry? location = some (.file content executable)) ∨
    (world.LogsTo location ∧ Tree.Lengthened world.tree final.tree location) := by
  have straight := Session.resolve_straight unlinked named resolved
  have relative := Settings.load_relative accepted
  have layouts := Settings.load_separated unlinked accepted
  have place : Location.steps [] root = root := straight
  rw [place] at layouts
  suffices alone : World.LeavesAlone world final location by
    rcases alone with kept | grown
    · exact .inl kept.file_iff
    · exact .inr grown
  rcases layouts with separated | ⟨⟨other, separated⟩, noDirectory⟩
  · have noOutput : ¬ (Layout.ofNames root.path settings.layout).IsOutput location := by
      rcases outside with outside | inside
      · exact outside
      · exact Layout.not_isOutput_of_source straight relative separated inside
    rcases ran with rfl | rfl
    · exact (generate_frame contained skipCompile named resolved accepted unlinked).alone _ noOutput
    · rcases Program.cleanProject_after unlinked straight resolved accepted with same | cleaned
      · rw [same]
        exact .inl (.inl rfl)
      · rw [cleaned]
        have absolute := Layout.absolute_ofNames root settings.layout
        exact (Cleanup.clean_frame absolute world unlinked).alone _ noOutput
  · -- The path names a settings file: there is no project, and nothing can be below the file.
    have absent : ∀ key : OutputKey, world.tree.pathExists world.session.cwd
        (root.path / key.valueIn settings.layout) ≠ .ok true := by
      intro key
      have below : root.path / key.valueIn settings.layout =
          Location.path (root ++ Path.partsOf (key.valueIn settings.layout).toList) := by
        change root.path.join (Path.ofString _) = _
        simp [Path.join, Path.isAbsolute, Path.ofString, relative.output key, Location.path]
      rw [below]
      exact Tree.pathExists_below unlinked (separated.partsOf_ne_nil key) noDirectory
    have unchanged : final = world := by
      rcases ran with rfl | rfl
      · exact generate_after_of_noProject tools skipCompile resolved noDirectory
      · rcases Program.cleanProject_after unlinked straight resolved accepted with same | cleaned
        · exact same
        · rw [cleaned]
          apply Cleanup.clean_of_absent
          simp only [List.forall_mem_cons, List.not_mem_nil, false_imp_iff, implies_true, and_true]
          exact ⟨absent .modulesDir, absent .binDir, absent .indexFile⟩
    rw [unchanged]
    exact .inl (.inl rfl)

def smallProject : World :=
  { tree :=
      { entries :=
          [ (["p"], .directory),
            (["p", "rs"], .directory),
            (["p", "rs", "a.rs"],
              .file (Text.utf8 "#[no_mangle] pub extern \"C\" fn f() \x7b\x7d") false) ] }
    session := { cwd := [], homes := [] }
    time := "" }

theorem smallProject_regular : smallProject.tree.Regular := by decide

theorem smallProject_unlinked : smallProject.tree.Unlinked := smallProject_regular.unlinked

theorem smallProject_named : smallProject.Named where
  tree := by decide
  cwd := by decide

theorem smallProject_resolve :
    smallProject.session.resolve smallProject.tree (Location.path ["p"]) = .ok ["p"] :=
  smallProject_regular.resolve_held rfl _

theorem smallProject_load :
    Settings.load smallProject.session smallProject.tree (Location.path ["p"]) =
      .ok { root := Location.path ["p"] } :=
  (@Settings.load_standard smallProject.session smallProject.tree ["p"]
    (fun upper _ target => smallProject_unlinked upper target) (by decide) (by decide) (by decide)
    (smallProject_regular.pathExists_absent (by decide) rfl _)).2

theorem smallProject_source_kept :
    Tree.entry?
        ((generate { runner := .linking } false (Location.path ["p"])).after smallProject).tree
        ["p", "rs", "a.rs"] =
      some (.file (Text.utf8 "#[no_mangle] pub extern \"C\" fn f() \x7b\x7d") false) := by
  have contained : Tools.Contained { runner := .linking } :=
    ⟨Compiler.Runner.linking_createsBesideOutput, fun _ given => nomatch given⟩
  have source : (Layout.ofNames (Location.path ["p"]) {}).sourceDir.location.covers
      ["p", "rs", "a.rs"] = true := by decide
  rcases files_outside_outputs contained smallProject_unlinked smallProject_named
      smallProject_resolve smallProject_load (.inl rfl) (.inr source) with kept | ⟨logged, -⟩
  · exact (kept _ _).mpr (by decide)
  · obtain ⟨handlers, present, -⟩ := logged
    cases present

end FfiBindings
