import FfiBindings.Proofs.Generation.Partition
import FfiBindings.Proofs.Run.Edits

set_option autoImplicit false

namespace FfiBindings

open ExceptT Generation

namespace Layout

variable {layout : Layout}

theorem modulePath_location_inj {moduleName other : String} (named : IsModuleName moduleName)
    (alsoNamed : IsModuleName other)
    (same : (layout.modulePath moduleName).location = (layout.modulePath other).location) :
    moduleName = other := by
  obtain ⟨directories, stem, rfl, below⟩ := named.fileBelow layout.modulesDir
  obtain ⟨otherDirectories, otherStem, rfl, otherBelow⟩ := alsoNamed.fileBelow layout.modulesDir
  rw [modulePath, modulePath, (below isExtension_moduleSuffix).location,
    (otherBelow isExtension_moduleSuffix).location, List.append_cancel_left_eq] at same
  obtain ⟨rfl, last⟩ := List.append_inj' same rfl
  rw [(String.append_left_inj ".ts").mp (List.cons.inj last).1]

def IsFileOf (layout : Layout) (modules : List BindingModule) (place : Location) : Prop :=
  ∃ bindings ∈ modules, place = (layout.modulePath bindings.name).location

def IsWayTo (layout : Layout) (modules : List BindingModule) (place : Location) : Prop :=
  ∃ bindings ∈ modules, Tree.OnWay [] (layout.modulePath bindings.name).parent place

end Layout

theorem Tree.plain_of_write {tree : Tree} {cwd : Location} {path : Path} {text : String}
    (succeeds : (write cwd path text).outcome tree = .ok ()) : containsNulPart path = false := by
  cases nul : containsNulPart path with
  | false => rfl
  | true =>
    simp only [write, update, nul, if_true, outcome_bind, outcome_throw] at succeeds
    cases succeeds

namespace Emission

variable {emission : Emission} {bindings : BindingModule} {world : World}

theorem writeModule_edits (absolute : emission.layout.Absolute) (bindings : BindingModule)
    (world : World) :
    World.Edits (emission.layout.IsFileOf [bindings]) (emission.layout.IsWayTo [bindings]) world
      ((emission.writeModule bindings).after world) := by
  have rooted : (emission.layout.modulePath bindings.name).isAbsolute = true :=
    Path.isAbsolute_div absolute.modules _
  have above : (emission.layout.modulePath bindings.name).parent.isAbsolute = true := rooted
  unfold writeModule
  refine rel_after_bind (Run.makeDirectories_edits above ?_ world) fun _ _ => ?_
  · exact fun place onWay => ⟨bindings, by simp, onWay⟩
  refine rel_after_bind (by simpa using World.edits_refl _) fun text _ => ?_
  refine rel_after_bind (Run.write_edits rooted ⟨bindings, by simp, rfl⟩ text _) fun _ _ => ?_
  exact rel_after_bind (Run.log_edits _ _) fun _ _ => World.edits_refl _

theorem bindingText_standard (standard : emission.templatesDir = none) {text : String}
    (made : (emission.bindingText bindings).outcome world = .ok text) :
    text = FfiBindings.bindingText bindings.source (emission.layout.libraryPath bindings.name)
      (bindings.functions emission.aliases) := by
  unfold bindingText at made
  rw [standard] at made
  exact (Except.ok.inj made).symm

theorem writeModule_holdsText {target : Path}
    (succeeds : (emission.writeModule bindings).outcome world = .ok target) :
    ∃ text, (emission.bindingText bindings).outcome
        ((Run.makeDirectories (emission.layout.modulePath bindings.name).parent).after world) =
        .ok text ∧
      Tree.containsNulPart (emission.layout.modulePath bindings.name) = false ∧
      ((emission.writeModule bindings).after world).HoldsText
        (emission.layout.modulePath bindings.name) text := by
  obtain ⟨_, -, succeeds, afterDirectories⟩ := outcome_bind_eq_ok succeeds
  obtain ⟨text, made, succeeds, afterText⟩ := outcome_bind_eq_ok succeeds
  obtain ⟨_, wrote, succeeds, afterWrite⟩ := outcome_bind_eq_ok succeeds
  rw [writeModule, afterDirectories, afterText, afterWrite]
  have holds := Run.write_holdsText wrote
  rw [Run.write_outcome, Except.mapError_eq_ok] at wrote
  exact ⟨text, made, Tree.plain_of_write wrote, holds.log _⟩

theorem placeIndex_edits (absolute : emission.layout.Absolute) (index : ExportIndex)
    (text : String) (world : World) :
    World.Edits (· = emission.layout.indexFile.location)
      (Tree.OnWay [] emission.layout.indexFile.parent) world
      ((emission.placeIndex index text).after world) := by
  have above : emission.layout.indexFile.parent.isAbsolute = true := absolute.index
  unfold placeIndex
  refine rel_after_bind (Run.makeDirectories_edits above (fun _ => id) world) fun _ _ => ?_
  refine rel_after_bind (Run.write_edits absolute.index (by rfl) text _) fun _ _ => ?_
  exact rel_after_bind (Run.log_edits _ _) fun _ _ => World.edits_refl _

theorem writeIndex_edits (absolute : emission.layout.Absolute) (typeFilter : Bool)
    (index : ExportIndex) (world : World) :
    World.Edits (· = emission.layout.indexFile.location)
      (Tree.OnWay [] emission.layout.indexFile.parent) world
      ((emission.writeIndex typeFilter index).after world) := by
  rw [writeIndex_eq]
  refine rel_after_bind ?_ fun text _ => ?_
  · rw [indexText_after]
    exact Run.logAll_edits _ world
  refine rel_after_bind (by simpa using World.edits_refl _) fun present _ => ?_
  cases present
  · exact placeIndex_edits absolute index text _
  · exact rel_after_bind (Run.unlink_edits absolute.index (by rfl) _)
      fun _ _ => placeIndex_edits absolute index text _

theorem writeIndex_plain {typeFilter : Bool} {index : ExportIndex} {target : Path}
    (succeeds : (emission.writeIndex typeFilter index).outcome world = .ok target) :
    Tree.containsNulPart emission.layout.indexFile = false := by
  rw [writeIndex_eq] at succeeds
  obtain ⟨text, -, succeeds, -⟩ := outcome_bind_eq_ok succeeds
  obtain ⟨present, -, succeeds, -⟩ := outcome_bind_eq_ok succeeds
  have placed : ∀ {world : World},
      (emission.placeIndex index text).outcome world = .ok target →
      Tree.containsNulPart emission.layout.indexFile = false := by
    intro world succeeds
    obtain ⟨_, -, succeeds, -⟩ := outcome_bind_eq_ok succeeds
    obtain ⟨_, wrote, -, -⟩ := outcome_bind_eq_ok succeeds
    rw [Run.write_outcome, Except.mapError_eq_ok] at wrote
    exact Tree.plain_of_write wrote
  cases present with
  | false => exact placed succeeds
  | true =>
    obtain ⟨_, -, succeeds, -⟩ := outcome_bind_eq_ok succeeds
    exact placed succeeds

end Emission

namespace Generation

variable {emission : Emission} {parser : Extraction.SignatureParser}
  {progress next last : Progress} {source : SourceFile} {sources : List SourceFile} {world : World}

/-- A module gets a text: the one put together for it when its turn has come and its directory is
there. -/
inductive Emits (emission : Emission) (parser : Extraction.SignatureParser) :
    Progress → World → List SourceFile → BindingModule → String → Prop
  | now {progress : Progress} {world : World} {source : SourceFile} {rest : List SourceFile}
      {bytes : Text.Bytes} {bindings : BindingModule} {records : List Log.Record} {text : String}
      (read : world.tree.readBytes world.session.cwd source.path = .ok bytes)
      (found : moduleOf? parser source bytes = some (bindings, records))
      (emitted : (emission.bindingText bindings).outcome
        ((Run.makeDirectories (emission.layout.modulePath bindings.name).parent).after
          ((Run.logAll records).after world)) = .ok text) :
      Emits emission parser progress world (source :: rest) bindings text
  | later {progress next : Progress} {world : World} {source : SourceFile}
      {rest : List SourceFile} {bindings : BindingModule} {text : String}
      (processed : (processSource emission parser progress source).outcome world = .ok next)
      (onward : Emits emission parser next
        ((processSource emission parser progress source).after world) rest bindings text) :
      Emits emission parser progress world (source :: rest) bindings text

theorem Emits.standard (standard : emission.templatesDir = none) {bindings : BindingModule}
    {text : String} (emits : Emits emission parser progress world sources bindings text) :
    text = FfiBindings.bindingText bindings.source (emission.layout.libraryPath bindings.name)
      (bindings.functions emission.aliases) := by
  induction emits with
  | now read found emitted => exact Emission.bindingText_standard standard emitted
  | later processed onward ih => exact ih

theorem processSource_edits (absolute : emission.layout.Absolute)
    (processed : (processSource emission parser progress source).outcome world = .ok next) :
    ∃ fresh, next.modules = progress.modules ++ fresh ∧
      World.Edits (emission.layout.IsFileOf fresh) (emission.layout.IsWayTo fresh) world
        ((processSource emission parser progress source).after world) := by
  rcases processSource_cases processed with ⟨-, -, -, rfl, after⟩ |
    ⟨-, bindings, records, -, -, -, -, -, -, rfl, after⟩
  · rw [after]
    exact ⟨[], by simp, Run.log_edits _ world⟩
  · rw [after]
    exact ⟨[bindings], rfl, IsTrans.trans _ _ _ (Run.logAll_edits records world)
      (Emission.writeModule_edits absolute bindings _)⟩

theorem processAll_outputs (absolute : emission.layout.Absolute) (unlinked : world.tree.Unlinked)
    (succeeds : (processAll emission parser progress sources).outcome world = .ok last) :
    ∃ fresh, last.modules = progress.modules ++ fresh ∧
      World.Edits (emission.layout.IsFileOf fresh) (emission.layout.IsWayTo fresh) world
        ((processAll emission parser progress sources).after world) ∧
      ((fresh.map fun bindings => (emission.layout.modulePath bindings.name).location).Nodup →
        ∀ bindings ∈ fresh, ∃ text, Emits emission parser progress world sources bindings text ∧
          Tree.containsNulPart (emission.layout.modulePath bindings.name) = false ∧
          ((processAll emission parser progress sources).after world).HoldsText
            (emission.layout.modulePath bindings.name) text) := by
  induction sources generalizing progress world with
  | nil =>
    cases succeeds
    exact ⟨[], by simp, World.edits_refl world, by simp⟩
  | cons source rest ih =>
    obtain ⟨next, processed, succeeds, after⟩ := outcome_bind_eq_ok succeeds
    obtain ⟨one, grown, step⟩ := processSource_edits absolute processed
    have stillUnlinked := step.unlinked unlinked
    obtain ⟨fresh, modules, edits, holds⟩ := ih stillUnlinked succeeds
    rw [processAll, after]
    refine ⟨one ++ fresh, by rw [modules, grown, List.append_assoc], ?_,
      fun distinct bindings member => ?_⟩
    · apply IsTrans.trans _ _ _ (step.mono _ _) (edits.mono _ _)
      all_goals
        rintro place ⟨bindings, listed, onWay⟩
        exact ⟨bindings, by simp [listed], onWay⟩
    · rw [List.map_append, List.nodup_append] at distinct
      rcases List.mem_append.mp member with now | later
      · rcases processSource_cases processed with ⟨-, -, -, rfl, -⟩ |
          ⟨bytes, written, records, target, index, read, found, wrote, -, rfl, afterOne⟩
        · obtain rfl : one = [] := by simpa using grown
          cases now
        · obtain rfl : [written] = one := by simpa using grown
          obtain rfl := List.mem_singleton.mp now
          -- The rest of the modules go elsewhere, so this one is left as it is now.
          obtain ⟨text, emitted, plain, held⟩ := Emission.writeModule_holdsText wrote
          rw [← afterOne] at held
          refine ⟨text, .now read found emitted, plain, ?_⟩
          apply edits.holdsText stillUnlinked (Path.isAbsolute_div absolute.modules _) _ held
          rintro ⟨other, listed, same⟩
          exact distinct.2.2 _ (List.mem_map_of_mem now) _ (List.mem_map_of_mem listed) same
      · obtain ⟨text, emits, plain, held⟩ := holds distinct.2.1 bindings later
        exact ⟨text, .later processed emits, plain, held⟩

theorem processAll_indexed (distinct : progress.index.importPaths.Nodup)
    (succeeds : (processAll emission parser progress sources).outcome world = .ok last) :
    last.index.importPaths.Nodup := by
  induction sources generalizing progress world with
  | nil =>
    cases succeeds
    exact distinct
  | cons source rest ih =>
    obtain ⟨next, processed, succeeds, -⟩ := outcome_bind_eq_ok succeeds
    refine ih ?_ succeeds
    rcases processSource_cases processed with ⟨-, -, -, rfl, -⟩ |
      ⟨-, bindings, -, -, index, -, -, -, added, rfl, -⟩
    · exact distinct
    · obtain ⟨fresh, rfl⟩ := add_eq_ok added
      have listed : ExportIndex.importPaths { entries := progress.index.entries ++
          [(emission.layout.importPath bindings.name, bindings.functionNames)] } =
          progress.index.importPaths ++ [emission.layout.importPath bindings.name] := by
        simp [ExportIndex.importPaths]
      rw [listed, List.nodup_append]
      refine ⟨distinct, by simp, ?_⟩
      rintro path member _ last rfl
      exact fresh (List.mem_singleton.mp last ▸ member)

theorem processAll_modules (named : ∀ source ∈ sources, IsModuleName source.moduleName)
    (succeeds : (processAll emission parser {} sources).outcome world = .ok last) :
    last.index = indexOf emission.layout last.modules ∧
      (last.modules.map fun bindings =>
        (emission.layout.modulePath bindings.name).location).Nodup := by
  have distinct := processAll_indexed (by simp [ExportIndex.importPaths, ExportIndex.empty]) succeeds
  obtain ⟨readings, rfl, -, folded, -⟩ := processAll_eq_ok succeeds
  rw [foldl_extend] at folded
  have index : last.index = indexOf emission.layout last.modules := by
    rw [folded]
    rfl
  refine ⟨index, ?_⟩
  have moduleNames : ∀ name ∈ last.modules.map (·.name), IsModuleName name := by
    rw [folded]
    simp only [List.nil_append, List.map_map, List.mem_map, forall_exists_index, and_imp]
    rintro name reading inside rfl
    exact named reading.source (List.mem_map_of_mem (List.mem_filter.mp inside).1)
  -- Specifiers are distinct, so module names are, and a module file tells the name of its module.
  rw [index, importPaths_indexOf] at distinct
  have names : (last.modules.map (·.name)).Nodup := by
    apply List.Nodup.of_map emission.layout.importPath
    rwa [List.map_map]
  have files : (last.modules.map fun bindings =>
      (emission.layout.modulePath bindings.name).location) =
      (last.modules.map (·.name)).map fun name => (emission.layout.modulePath name).location := by
    rw [List.map_map]
    rfl
  rw [files]
  refine List.Nodup.map_on (fun name member other alsoMember same => ?_) names
  exact Layout.modulePath_location_inj (moduleNames name member) (moduleNames other alsoMember) same

theorem writeIndex_outputs {written : World} {target : Path} (absolute : emission.layout.Absolute)
    (unlinked : world.tree.Unlinked)
    (named : ∀ source ∈ sources, IsModuleName source.moduleName)
    (succeeds : (processAll emission parser {} sources).outcome world = .ok last)
    (written_eq : written = (processAll emission parser {} sources).after world)
    (indexed : (emission.writeIndex true last.index).outcome written = .ok target) :
    ∃ index, (emission.indexText true last.index).outcome written = .ok index ∧
      ((emission.writeIndex true last.index).after written).HoldsText emission.layout.indexFile
        index ∧
      ∀ bindings ∈ last.modules, ∃ text,
        Emits emission parser {} world sources bindings text ∧
        Tree.containsNulPart (emission.layout.modulePath bindings.name) = false ∧
        ((emission.writeIndex true last.index).after written).HoldsText
          (emission.layout.modulePath bindings.name)
          (if (emission.layout.modulePath bindings.name).location =
            emission.layout.indexFile.location then index else text) := by
  obtain ⟨fresh, all, edits, holds⟩ := processAll_outputs absolute unlinked succeeds
  obtain rfl : last.modules = fresh := all
  obtain ⟨-, index, made, indexHeld⟩ := Emission.writeIndex_holds indexed
  have writing := Emission.writeIndex_edits absolute true last.index written
  rw [← written_eq] at edits holds
  have writtenUnlinked := edits.unlinked unlinked
  refine ⟨index, made, indexHeld, fun bindings member => ?_⟩
  obtain ⟨text, emits, plain, held⟩ :=
    holds (processAll_modules named succeeds).2 bindings member
  have rooted : (emission.layout.modulePath bindings.name).isAbsolute = true :=
    Path.isAbsolute_div absolute.modules _
  refine ⟨text, emits, plain, ?_⟩
  -- Nothing keeps the index from being written over a module: the settings only check both against
  -- the sources.
  by_cases shared : (emission.layout.modulePath bindings.name).location =
      emission.layout.indexFile.location
  · rw [if_pos shared]
    exact writing.holdsText_at writtenUnlinked rooted absolute.index shared held indexHeld
  · rw [if_neg shared]
    exact writing.holdsText writtenUnlinked rooted shared held

end Generation

def World.StaysUnlinked (before after : World) : Prop :=
  before.tree.Unlinked → after.tree.Unlinked

instance : IsPreorder World World.StaysUnlinked where
  refl _ := id
  trans _ _ _ first second unlinked := second (first unlinked)

/-- Tools whose compiler makes no links. -/
structure Tools.MakesNoLinks (tools : Tools) : Prop where
  runner : ∀ count invocation tree, Tree.Unlinked tree →
    Tree.Unlinked (tools.runner.run count invocation tree).2
  compiler : ∀ step, tools.compiler = some step →
    ∀ layout sources world, World.StaysUnlinked world ((step layout sources).after world)

namespace Run

theorem makeDirectories_staysUnlinked (path : Path) (world : World) :
    World.StaysUnlinked world ((makeDirectories path).after world) :=
  fun unlinked => (makeDirectories_frame (fun _ => True) path world unlinked).unlinked

theorem unlink_staysUnlinked (path : Path) (world : World) :
    World.StaysUnlinked world ((unlink path).after world) := by
  intro unlinked
  rw [unlink_after]
  rcases Tree.unlink_cases unlinked world.session.cwd path with ⟨_, -, same⟩ | ⟨_, _, -, erased, -⟩
  · rw [same]
    exact unlinked
  · rw [erased]
    exact unlinked.erase _

end Run

namespace Compiler.Native

variable {compiler : Native}

theorem removeStrays_staysUnlinked (paths : List Path) (world : World) :
    World.StaysUnlinked world ((paths.forM removeStray).after world) := by
  induction paths generalizing world with
  | nil => exact refl world
  | cons stray rest ih =>
    change World.StaysUnlinked world
      (after (removeStray stray >>= fun _ => rest.forM removeStray) world)
    refine rel_after_bind ?_ fun _ _ => ih _
    unfold removeStray
    refine rel_after_bind (by simpa using refl world) fun present _ => ?_
    cases present
    · exact refl _
    · exact Run.unlink_staysUnlinked stray _

theorem compile_staysUnlinked
    (plain : ∀ count invocation tree, Tree.Unlinked tree →
      Tree.Unlinked (compiler.runner.run count invocation tree).2)
    (layout : Layout) (sources : List SourceFile) (world : World) :
    World.StaysUnlinked world ((compiler.compile layout sources).after world) := by
  induction sources generalizing world with
  | nil => exact refl world
  | cons source rest ih =>
    unfold compile
    refine rel_after_bind ?_ fun _ _ => ?_
    · unfold compileOne
      refine rel_after_bind (Run.makeDirectories_staysUnlinked _ world) fun _ _ => ?_
      refine rel_after_bind (fun unlinked => World.log_unlinked unlinked _) fun _ _ => ?_
      refine rel_after_bind (fun unlinked => ?_) fun _ _ => ?_
      · rw [call_after]
        exact plain _ _ _ unlinked
      · rw [after_bind_pure]
        exact removeStrays_staysUnlinked _ _
    · rw [after_bind_pure]
      exact ih _

end Compiler.Native

theorem Generation.prepared_unlinked {tools : Tools} (plain : tools.MakesNoLinks)
    (settings : Settings) (skipCompile : Bool) (layout : Layout) (sources : List SourceFile)
    {world : World} (unlinked : world.tree.Unlinked) :
    (prepared tools settings skipCompile layout sources world).tree.Unlinked := by
  apply Run.makeDirectories_staysUnlinked
  have started := World.log_unlinked unlinked (startRecord sources.length layout.sourceDir)
  unfold artifactsOf
  split
  · exact started
  · unfold compileStep
    cases given : tools.compiler with
    | some step => exact plain.compiler step given layout sources _ started
    | none => exact Compiler.Native.compile_staysUnlinked plain.runner layout sources _ started

variable {world : World} {directory : Path} {root : Location} {settings : Settings}

/-- After a generation that succeeds, the index file holds the index as it was put together at the end,
and every module the binding that was put together in its turn, unless its file is the index file. -/
theorem outputs_hold_texts {tools : Tools} {skipCompile : Bool} {report : Report}
    (plain : tools.MakesNoLinks) (unlinked : world.tree.Unlinked) (named : world.Named)
    (resolved : world.session.resolve world.tree directory = .ok root)
    (accepted : Settings.load world.session world.tree root.path = .ok settings)
    (returned : (generate tools skipCompile directory).outcome world = .ok report) :
    ∃ (parser : Extraction.SignatureParser) (emission : Emission) (sources : List SourceFile)
      (start : World) (index : String),
      (findParser tools settings).outcome world = .ok parser ∧
      emission = ⟨report.layout, settings.aliases, settings.templatesDir⟩ ∧
      sources = discover world.tree report.layout.sourceDir settings.excludePaths ∧
      start = prepared tools settings skipCompile report.layout sources world ∧
      (emission.indexText true (indexOf report.layout report.modules)).outcome
        ((processAll emission parser {} sources).after start) = .ok index ∧
      ((generate tools skipCompile directory).after world).HoldsText report.layout.indexFile index ∧
      ∀ bindings ∈ report.modules, ∃ text,
        Emits emission parser {} start sources bindings text ∧
        ((generate tools skipCompile directory).after world).HoldsText
          (report.layout.modulePath bindings.name)
          (if (report.layout.modulePath bindings.name).location = report.layout.indexFile.location
            then index else text) := by
  obtain ⟨parser, progress, sources, emission, start, written, laidOut, -, parsed, sources_eq,
    emission_eq, start_eq, processed, written_eq, indexed, modules, -, final⟩ :=
    generate_eq_ok resolved accepted returned
  have straight := Session.resolve_straight unlinked named resolved
  have layout : emission.layout = report.layout := by rw [emission_eq]
  have absolute : emission.layout.Absolute := by
    rw [layout, layoutOf_eq_ok unlinked straight laidOut]
    exact Layout.absolute_ofNames root settings.layout
  have moduleNames : ∀ source ∈ sources, IsModuleName source.moduleName := by
    rw [sources_eq]
    exact fun source member => isModuleName_of_mem_discover named.tree member
  have startUnlinked : start.tree.Unlinked := by
    rw [start_eq]
    exact prepared_unlinked plain settings skipCompile report.layout sources unlinked
  obtain ⟨index, made, indexHeld, held⟩ :=
    writeIndex_outputs absolute startUnlinked moduleNames processed written_eq indexed
  rw [(processAll_modules moduleNames processed).1, ← modules, layout, written_eq] at made
  rw [layout] at indexHeld held
  rw [final]
  refine ⟨parser, emission, sources, start, index, parsed, emission_eq, sources_eq, start_eq, made,
    indexHeld.log _, fun bindings member => ?_⟩
  rw [modules] at member
  obtain ⟨text, emits, -, holds⟩ := held bindings member
  exact ⟨text, emits, holds.log _⟩

theorem indexText_ne_bindingText (index : ExportIndex) (source library : String)
    (functions : List FunctionBinding) : indexText index ≠ bindingText source library functions := by
  intro same
  have begins := congrArg (fun text => text.toList.take 25) same
  simp only [indexText, indexLines, bindingText, bindingLines, textOfLines, List.cons_append,
    List.map_cons, String.join_cons, String.toList_append, List.append_assoc] at begins
  rw [List.take_append_of_le_length (by decide), List.take_append_of_le_length (by decide)] at begins
  exact absurd begins (by decide)

theorem World.Bare.holdsText_iff {session : Session} {tree : Tree} {path : Path} {text : String}
    (bare : world.Bare session tree) :
    world.HoldsText path text ↔ tree.readBytes session.cwd path = .ok (Text.utf8 text) := by
  unfold World.HoldsText
  rw [bare.tree, bare.session]
  constructor
  · rintro ⟨more, read, rfl | ⟨-, ⟨handlers, present, -⟩, -⟩⟩
    · rwa [List.append_nil] at read
    · rw [bare.handlers] at present
      cases present
  · exact fun read => ⟨[], (List.append_nil _).symm ▸ read, .inl rfl⟩

def clashingProject : World :=
  { tree :=
      { entries :=
          [ (["p"], .directory),
            (["p", ".rustport.yml"],
              .file (Text.utf8 "layout: \x7bindex_file: mod/a.ts\x7d\n") false),
            (["p", "rs"], .directory),
            (["p", "rs", "a.rs"],
              .file (Text.utf8 "#[no_mangle] pub extern \"C\" fn f() \x7b\x7d") false) ] }
    session := { cwd := [], homes := [] }
    time := "" }

def clashingSettings : Settings :=
  { root := Location.path ["p"], layout := { indexFile := "mod/a.ts" } }

def clashingLayout : Layout := Layout.ofNames (Location.path ["p"]) clashingSettings.layout

def clashingIndex : ExportIndex := indexOf clashingLayout [mixedFirst]

def clashingReport : Report :=
  { layout := clashingLayout
    modules := [mixedFirst]
    skipped := []
    artifacts := []
    index := clashingLayout.indexFile }

def clashingBinding : String :=
  bindingText "a.rs" (clashingLayout.libraryPath "a") (mixedFirst.functions [])

def clashingPrepared : Tree := clashingProject.tree.put ["p", "mod"] .directory

def clashingBound : Tree :=
  clashingPrepared.put ["p", "mod", "a.ts"] (.file (Text.utf8 clashingBinding) false)

def clashingCleared : Tree := clashingBound.erase ["p", "mod", "a.ts"]

def clashingGenerated : Tree :=
  clashingCleared.put ["p", "mod", "a.ts"] (.file (Text.utf8 (indexText clashingIndex)) false)

theorem clashingProject_regular : clashingProject.tree.Regular := by decide

theorem clashingProject_load :
    Settings.load clashingProject.session clashingProject.tree (Location.path ["p"]) =
      .ok clashingSettings :=
  @Settings.load_text clashingProject.session clashingProject.tree ["p"] _ _
    clashingProject_regular.unlinked (by decide) (by decide) (by decide)
    (clashingProject_regular.readBytes_held rfl _) (by decide +kernel)
    ⟨by decide, by rintro (_ | _ | _) <;> decide⟩ (by decide)

theorem clashingProject_accepted :
    Accepted clashingProject.session clashingProject.tree (Location.path ["p"]) ["p"]
      clashingSettings [mixedSource [] "a"] :=
  @Accepted.of_regular _ _ clashingProject_regular ["p"] ["p", "rs"] _ _ rfl clashingProject_load rfl
    rfl (by decide +kernel) (by decide)

open Run in
theorem clashingProject_yields :
    Yields (generate standardTools true (Location.path ["p"])) clashingProject.session
      clashingProject.tree clashingReport clashingGenerated := by
  have prepared : clashingPrepared.Regular := by decide
  have bound : clashingBound.Regular := by decide
  have cleared : clashingCleared.Regular := by decide
  have modules := clashingProject_regular.makeDirectories_free
    (by decide : clashingProject.tree.Vacancy ["p", "mod"]) []
  have first := prepared.write_free (by decide : clashingPrepared.Vacancy ["p", "mod", "a.ts"]) []
    clashingBinding
  have removed := bound.unlink_held (rfl : clashingBound.entry? ["p", "mod", "a.ts"] = some _) []
  have last := cleared.write_free (by decide : clashingCleared.Vacancy ["p", "mod", "a.ts"]) []
    (indexText clashingIndex)
  have one : Yields (processSource ⟨clashingLayout, [], none⟩ Extraction.declarationParser {}
      (mixedSource [] "a")) clashingProject.session clashingPrepared
      { modules := [mixedFirst], index := clashingIndex } clashingBound :=
    yields_processSource (prepared.readBytes_held rfl _)
      (by decide +kernel : _ = some (mixedFirst, []))
      (yields_writeModule rfl (prepared.makeDirectories_held (by decide) rfl _) first) rfl
  have processed : Yields (processAll ⟨clashingLayout, [], none⟩ Extraction.declarationParser {}
      [mixedSource [] "a"]) clashingProject.session clashingPrepared
      { modules := [mixedFirst], index := clashingIndex } clashingBound :=
    one.bind (yields_pure _ _ _)
  have indexed : Yields (Emission.writeIndex ⟨clashingLayout, [], none⟩ true clashingIndex)
      clashingProject.session clashingBound clashingLayout.indexFile clashingGenerated :=
    yields_writeIndex_over (bound.pathExists_held rfl _) removed
      (yields_placeIndex rfl (cleared.makeDirectories_held (by decide) rfl _) last)
  have parsed : Yields (findParser standardTools clashingSettings) clashingProject.session
      clashingProject.tree Extraction.declarationParser clashingProject.tree := yields_pure _ _ _
  have produced : Yields (produce standardTools true clashingSettings clashingLayout
      [mixedSource [] "a"]) clashingProject.session clashingProject.tree clashingReport
      clashingGenerated :=
    yields_produce parsed modules rfl processed indexed
  exact ends_generate clashingProject_accepted produced

/-- The index may take the place of a binding: the settings are accepted, the module is reported, and
its file does not hold what was put together for it. -/
theorem clashingProject_overwritten :
    clashingProject.tree.Unlinked ∧
      Settings.load clashingProject.session clashingProject.tree (Location.path ["p"]) =
        .ok clashingSettings ∧
      (generate standardTools true (Location.path ["p"])).outcome clashingProject =
        .ok clashingReport ∧
      mixedFirst ∈ clashingReport.modules ∧
      (Emission.bindingText ⟨clashingReport.layout, [], none⟩ mixedFirst).outcome clashingProject =
        .ok clashingBinding ∧
      ((generate standardTools true (Location.path ["p"])).after clashingProject).HoldsText
        (clashingReport.layout.modulePath mixedFirst.name) (indexText clashingIndex) ∧
      ¬((generate standardTools true (Location.path ["p"])).after clashingProject).HoldsText
        (clashingReport.layout.modulePath mixedFirst.name) clashingBinding := by
  obtain ⟨returned, left⟩ := clashingProject_yields clashingProject ⟨rfl, rfl, rfl⟩
  have generated : clashingGenerated.Regular := by decide
  have held : clashingGenerated.readBytes [] (clashingReport.layout.modulePath mixedFirst.name) =
      .ok (Text.utf8 (indexText clashingIndex)) :=
    generated.readBytes_held rfl _
  refine ⟨clashingProject_regular.unlinked, clashingProject_load, returned,
    List.mem_singleton_self _, rfl, left.holdsText_iff.mpr held, fun bound => ?_⟩
  have same := Except.ok.inj (held.symm.trans (left.holdsText_iff.mp bound))
  exact indexText_ne_bindingText _ _ _ _ (Text.utf8_inj.mp same)

theorem smallTools_makesNoLinks : smallTools.MakesNoLinks where
  runner count invocation tree unlinked := by
    change (invocation.linked tree).Unlinked
    unfold Compiler.Invocation.linked
    split
    · exact unlinked.put _ (by simp)
    · exact unlinked
  compiler _ given := nomatch given

theorem smallProject_module_held :
    World.HoldsText ((generate smallTools true (Location.path ["p"])).after smallProject)
      (smallLayout.modulePath "a") smallBinding := by
  obtain ⟨parser, emission, sources, start, index, -, rfl, -, -, -, -, modules⟩ :=
    outputs_hold_texts smallTools_makesNoLinks smallProject_unlinked smallProject_named
      smallProject_resolve smallProject_load
      (smallProject_yields smallProject ⟨rfl, rfl, rfl⟩).1
  obtain ⟨text, emits, held⟩ := modules smallModule (by simp [smallReport])
  have elsewhere : (smallLayout.modulePath "a").location ≠ smallLayout.indexFile.location := by
    decide
  rw [show text = smallBinding from emits.standard rfl] at held
  exact (if_neg elsewhere ▸ held :)

end FfiBindings
