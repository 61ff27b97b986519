import FfiBindings.Proofs.Cleanup
import FfiBindings.Proofs.Generation.Inputs
import FfiBindings.Proofs.Generation.Outputs

set_option autoImplicit false

namespace FfiBindings

open ExceptT

namespace Layout

section Files

variable (layout : Layout) (modules : List BindingModule) (place : Location)

def files : List Path :=
  layout.indexFile :: modules.map fun bindings => layout.modulePath bindings.name

def IsFile : Prop :=
  ∃ path ∈ layout.files modules, place = path.location

def IsWay : Prop :=
  Tree.OnWay [] layout.modulesDir place ∨
    ∃ path ∈ layout.files modules, Tree.OnWay [] path.parent place

end Files

structure Direct (layout : Layout) : Prop where
  absolute : layout.Absolute
  modules : ".." ∉ layout.modulesDir.parts
  libraries : ".." ∉ layout.binDir.parts
  index : ".." ∉ layout.indexFile.parts

variable {layout : Layout} {modules : List BindingModule} {path : Path}

theorem mem_files_of_mem {bindings : BindingModule} (member : bindings ∈ modules) :
    layout.modulePath bindings.name ∈ layout.files modules :=
  List.mem_cons_of_mem _ (List.mem_map_of_mem member)

theorem Direct.output (direct : layout.Direct) (output : path ∈ layout.outputs) :
    path.isAbsolute = true ∧ ".." ∉ path.parts := by
  simp only [outputs, List.mem_cons, List.not_mem_nil, or_false] at output
  rcases output with rfl | rfl | rfl
  · exact ⟨direct.absolute.modules, direct.modules⟩
  · exact ⟨direct.absolute.libraries, direct.libraries⟩
  · exact ⟨direct.absolute.index, direct.index⟩

theorem modulePath_parts {moduleName : String} (named : IsModuleName moduleName) :
    ∃ below, ".." ∉ below ∧
      (layout.modulePath moduleName).parts = layout.modulesDir.parts ++ below := by
  obtain ⟨directories, stem, -, below⟩ := named.fileBelow layout.modulesDir
  replace below := below isExtension_moduleSuffix
  exact ⟨directories ++ [stem ++ ".ts"], fun up => (below.names _ up).2 rfl,
    congrArg Path.parts below.eq⟩

theorem Direct.file (direct : layout.Direct)
    (named : ∀ bindings ∈ modules, IsModuleName bindings.name)
    (file : path ∈ layout.files modules) :
    path.isAbsolute = true ∧ ".." ∉ path.parts ∧
      ∃ output ∈ layout.outputs, output.parts <+: path.parts := by
  rcases List.mem_cons.mp file with rfl | module
  · exact ⟨direct.absolute.index, direct.index, _, by simp [outputs], List.prefix_rfl⟩
  · obtain ⟨bindings, member, rfl⟩ := List.mem_map.mp module
    obtain ⟨below, upless, parts⟩ := @modulePath_parts layout _ (named bindings member)
    refine ⟨Path.isAbsolute_div direct.absolute.modules _, ?_, layout.modulesDir,
      by simp [outputs], ?_⟩
    · rw [parts]
      simp [direct.modules, upless]
    · rw [parts]
      exact List.prefix_append _ _

end Layout

def Tree.SameBytes (before after : Tree) : Prop :=
  ∀ location, after.entry? location = before.entry? location ∨
    ∃ content old new, before.entry? location = some (.file content old) ∧
      after.entry? location = some (.file content new)

namespace Generation

variable {tools : Tools} {settings : Settings} {layout : Layout} {directory : Path}
  {root : Location} {sources : List SourceFile} {emission : Emission}
  {parser : Extraction.SignatureParser} {progress last : Progress} {readings : List Reading}
  {report : Report} {world final : World}

theorem processAll_reads (absolute : emission.layout.Absolute) (unlinked : world.tree.Unlinked)
    (silent : world.Silent)
    (succeeds : (processAll emission parser progress sources).outcome world = .ok last) :
    ∃ readings : List Reading, readings.map (·.source) = sources ∧
      last = readings.foldl (Progress.extend emission.layout parser) progress ∧
      ∀ reading ∈ readings, reading.source.path.isAbsolute = true →
        ¬ emission.layout.IsFileOf last.modules reading.source.path.location →
        ((processAll emission parser progress sources).after world).tree.readBytes
          ((processAll emission parser progress sources).after world).session.cwd
          reading.source.path = .ok reading.bytes := by
  induction sources generalizing progress world with
  | nil =>
    cases succeeds
    exact ⟨[], rfl, rfl, by simp⟩
  | cons source rest ih =>
    obtain ⟨fresh, modules, edits, -⟩ := processAll_outputs absolute unlinked succeeds
    obtain ⟨next, processed, succeeds, after⟩ := outcome_bind_eq_ok succeeds
    obtain ⟨reading, rfl, read, extended, -⟩ := processSource_eq_ok processed
    obtain ⟨one, -, step⟩ := processSource_edits absolute processed
    obtain ⟨readings, rfl, folded, later⟩ :=
      ih (step.unlinked unlinked) (step.tree unlinked silent).2 succeeds
    rw [extended] at folded
    refine ⟨reading :: readings, rfl, folded, ?_⟩
    rw [List.forall_mem_cons]
    -- The first source was read before anything was written, so all that follows has to spare it.
    constructor
    · intro rooted elsewhere
      refine edits.readBytes unlinked silent rooted ?_ read
      rintro ⟨bindings, listed, same⟩
      exact elsewhere ⟨bindings, by simp [modules, listed], same⟩
    · rw [processAll, after]
      exact later

def finalText (emission : Emission) (modules : List BindingModule) (bindings : BindingModule) :
    String :=
  if (emission.layout.modulePath bindings.name).location = emission.layout.indexFile.location then
    indexText (indexOf emission.layout modules)
  else
    bindingText bindings.source (emission.layout.libraryPath bindings.name)
      (bindings.functions emission.aliases)

structure Holds (emission : Emission) (modules : List BindingModule) (final : World) : Prop where
  module : ∀ bindings ∈ modules,
    Tree.containsNulPart (emission.layout.modulePath bindings.name) = false ∧
      final.tree.readBytes final.session.cwd (emission.layout.modulePath bindings.name) =
        .ok (Text.utf8 (finalText emission modules bindings))
  index : Tree.containsNulPart emission.layout.indexFile = false ∧
    final.tree.readBytes final.session.cwd emission.layout.indexFile =
      .ok (Text.utf8 (indexText (indexOf emission.layout modules)))

theorem written_done {start written : World} {target : Path} {record : Log.Record}
    (absolute : emission.layout.Absolute) (standard : emission.templatesDir = none)
    (unlinked : start.tree.Unlinked) (silent : start.Silent)
    (named : ∀ source ∈ sources, IsModuleName source.moduleName)
    (processed : (processAll emission parser {} sources).outcome start = .ok last)
    (written_eq : written = (processAll emission parser {} sources).after start)
    (indexed : (emission.writeIndex true last.index).outcome written = .ok target)
    (final_eq : final = ((emission.writeIndex true last.index).after written).log record) :
    World.Edits (emission.layout.IsFile last.modules) (emission.layout.IsWay last.modules) start
        final ∧
      Holds emission last.modules final ∧
      ∃ readings : List Reading, readings.map (·.source) = sources ∧
        last = readings.foldl (Progress.extend emission.layout parser) {} ∧
        ∀ reading ∈ readings, reading.source.path.isAbsolute = true →
          ¬ emission.layout.IsFile last.modules reading.source.path.location →
          final.tree.readBytes final.session.cwd reading.source.path = .ok reading.bytes := by
  obtain ⟨readings, sourced, folded, reads⟩ := processAll_reads absolute unlinked silent processed
  obtain ⟨fresh, all, processing, -⟩ := processAll_outputs absolute unlinked processed
  obtain rfl : last.modules = fresh := all
  rw [← written_eq] at processing reads
  have writtenUnlinked := processing.unlinked unlinked
  have writtenSilent := (processing.tree unlinked silent).2
  have finishing : World.Edits (· = emission.layout.indexFile.location)
      (Tree.OnWay [] emission.layout.indexFile.parent) written final := by
    rw [final_eq]
    exact IsTrans.trans _ _ _ (Emission.writeIndex_edits absolute true last.index written)
      (Run.log_edits _ _)
  refine ⟨?_, ?_, readings, sourced, folded, fun reading member rooted elsewhere => ?_⟩
  · apply IsTrans.trans _ _ _ (processing.mono _ _) (finishing.mono _ _)
    · rintro place ⟨bindings, member, same⟩
      exact ⟨_, Layout.mem_files_of_mem member, same⟩
    · rintro place ⟨bindings, member, onWay⟩
      exact .inr ⟨_, Layout.mem_files_of_mem member, onWay⟩
    · exact fun place same => ⟨_, List.mem_cons_self, same⟩
    · exact fun place onWay => .inr ⟨_, List.mem_cons_self, onWay⟩
  · obtain ⟨text, made, indexHeld, held⟩ :=
      writeIndex_outputs absolute unlinked named processed written_eq indexed
    obtain rfl : text = indexText (indexOf emission.layout last.modules) := by
      rw [Emission.indexText_standard standard made, (processAll_modules named processed).1]
    have reads : ∀ {path : Path} {text : String},
        ((emission.writeIndex true last.index).after written).HoldsText path text →
        final.tree.readBytes final.session.cwd path = .ok (Text.utf8 text) := by
      intro path text holds
      apply World.HoldsText.readBytes _ (finishing.tree writtenUnlinked writtenSilent).2
      rw [final_eq]
      exact holds.log record
    refine ⟨fun bindings member => ?_, Emission.writeIndex_plain indexed, reads indexHeld⟩
    obtain ⟨own, emits, plain, ends⟩ := held bindings member
    rw [emits.standard standard] at ends
    exact ⟨plain, reads ends⟩
  · refine finishing.readBytes writtenUnlinked writtenSilent rooted (fun index => ?_) ?_
    · exact elsewhere ⟨_, List.mem_cons_self, index⟩
    · apply reads reading member rooted
      rintro ⟨bindings, listed, same⟩
      exact elsewhere ⟨_, Layout.mem_files_of_mem listed, same⟩

/-- What a generation without compiling has done and left behind. -/
structure Done (tools : Tools) (settings : Settings) (layout : Layout)
    (sources : List SourceFile) (world final : World) (parser : Extraction.SignatureParser)
    (readings : List Reading) (report : Report) : Prop where
  parsed : (findParser tools settings).outcome world = .ok parser
  listed : readings.map (·.source) = sources
  reported : report =
    { layout
      modules := (readings.foldl (Progress.extend layout parser) {}).modules
      skipped := (readings.foldl (Progress.extend layout parser) {}).skipped
      artifacts := []
      index := layout.indexFile }
  distinct : (readings.foldl (Progress.extend layout parser) {}).index.importPaths.Nodup
  edits : World.Edits (layout.IsFile report.modules) (layout.IsWay report.modules) world final
  proper : layout.modulesDir.Proper
  inside : final.tree.Inside layout.modulesDir.parts
  holds : Holds ⟨layout, settings.aliases, none⟩ report.modules final
  read : ∀ reading ∈ readings, reading.source.path.isAbsolute = true →
    ¬ layout.IsFile report.modules reading.source.path.location →
    final.tree.readBytes final.session.cwd reading.source.path = .ok reading.bytes

theorem generate_done (finds : Finds world directory root settings layout sources)
    (unlinked : world.tree.Unlinked) (silent : world.Silent) (direct : layout.Direct)
    (named : ∀ source ∈ sources, IsModuleName source.moduleName)
    (standard : settings.templatesDir = none)
    (returned : (generate tools true directory).outcome world = .ok report)
    (final_eq : final = (generate tools true directory).after world) :
    ∃ parser readings, Done tools settings layout sources world final parser readings report := by
  obtain ⟨parser, progress, listed, emission, compiled, start, written, -, laidOut, -, parsed,
    listed_eq, emission_eq, compiledOk, compiled_eq, made, start_eq, processed, written_eq, indexed,
    modules, skipped, after⟩ := generate_steps finds.resolved finds.accepted returned
  obtain rfl : report.layout = layout := Except.ok.inj (laidOut.symm.trans finds.laidOut)
  obtain rfl : listed = sources := listed_eq.trans finds.discovered.symm
  rw [standard] at emission_eq
  subst emission_eq
  -- Before the first source only the directory for modules is made.
  have started : World.Edits (fun _ => False) (Tree.OnWay [] report.layout.modulesDir) world
      compiled := by
    rw [compiled_eq]
    exact Run.log_edits _ world
  have opened : World.Edits (fun _ => False) (Tree.OnWay [] report.layout.modulesDir) world
      start := by
    rw [start_eq]
    exact IsTrans.trans _ _ _ started
      (Run.makeDirectories_edits direct.absolute.modules (fun _ => id) compiled)
  rw [Run.makeDirectories_outcome, Except.mapError_eq_ok] at made
  obtain ⟨proper, inside⟩ := Tree.makeDirectories_inside (started.unlinked unlinked)
    direct.absolute.modules direct.modules made
  have startUnlinked := opened.unlinked unlinked
  obtain ⟨edits, holds, readings, sourced, folded, reads⟩ :=
    written_done direct.absolute rfl startUnlinked (opened.tree unlinked silent).2 named processed
      written_eq indexed (final_eq.trans after)
  rw [← modules] at edits holds reads
  refine ⟨parser, readings, ?_⟩
  constructor
  · exact parsed
  · exact sourced
  · have index : report.index = report.layout.indexFile := (Emission.writeIndex_holds indexed).1
    have artifacts : [] = report.artifacts := Except.ok.inj compiledOk
    rw [← folded, ← modules, ← skipped, artifacts, ← index]
  · rw [← folded]
    exact processAll_indexed (by simp [ExportIndex.importPaths, ExportIndex.empty]) processed
  · exact IsTrans.trans _ _ _ (opened.mono (fun _ => False.elim) fun _ => .inl) edits
  · exact proper
  · apply (edits.keepsWays startUnlinked).inside
    rw [start_eq, Run.makeDirectories_after]
    exact inside
  · exact holds
  · exact reads

theorem mem_modules_iff {bindings : BindingModule} :
    bindings ∈ (readings.foldl (Progress.extend layout parser) {}).modules ↔
      ∃ reading ∈ readings, reading.exportsAny parser = true ∧
        reading.bindings parser = bindings := by
  rw [foldl_extend]
  simp [and_assoc]

section Left

variable (done : Done tools settings layout sources world final parser readings report)

include done

theorem Done.named (named : ∀ source ∈ sources, IsModuleName source.moduleName) :
    ∀ bindings ∈ report.modules, IsModuleName bindings.name := by
  intro bindings member
  rw [done.reported, mem_modules_iff] at member
  obtain ⟨reading, listed, -, rfl⟩ := member
  exact named reading.source (done.listed ▸ List.mem_map_of_mem listed)

theorem Done.agrees {start other : World} {others : List Reading}
    {another : Extraction.SignatureParser}
    (again : Done tools settings layout sources start other another others report) :
    ∀ path ∈ layout.files report.modules, ∃ bytes,
      Tree.containsNulPart path = false ∧
      final.tree.readBytes final.session.cwd path = .ok bytes ∧
      other.tree.readBytes other.session.cwd path = .ok bytes := by
  intro path file
  -- Both hold the texts that the report and the settings determine.
  rcases List.mem_cons.mp file with rfl | module
  · exact ⟨_, done.holds.index.1, done.holds.index.2, again.holds.index.2⟩
  · obtain ⟨bindings, member, rfl⟩ := List.mem_map.mp module
    obtain ⟨plain, read⟩ := done.holds.module bindings member
    exact ⟨_, plain, read, (again.holds.module bindings member).2⟩

variable (unlinked : final.tree.Unlinked) (direct : layout.Direct)
  (named : ∀ bindings ∈ report.modules, IsModuleName bindings.name)

include unlinked direct named

theorem Done.placed {path : Path} (file : path ∈ layout.files report.modules) :
    path.Proper ∧ final.tree.Inside path.parts.dropLast ∧ ∃ content executable,
      final.tree.entry? path.parts = some (.file content executable) := by
  obtain ⟨rooted, upless, -⟩ := direct.file named file
  obtain ⟨bytes, plain, read, -⟩ := done.agrees done path file
  obtain ⟨proper, above, held⟩ := Tree.placed_of_readBytes unlinked rooted upless plain read
  exact ⟨proper, above, bytes, held⟩

theorem Done.way {place : Location} (way : layout.IsWay report.modules place) :
    final.tree.entry? place = some .directory := by
  rcases way with onWay | ⟨path, file, onWay⟩
  · exact done.inside place (onWay.prefix_parts done.proper.rooted done.proper.clear)
  · obtain ⟨proper, above, -⟩ := done.placed unlinked direct named file
    exact above place (onWay.prefix_parts proper.parent.rooted proper.parent.clear)

theorem Done.sameBytes {other : World} {others : List Reading}
    {another : Extraction.SignatureParser} (silent : final.Silent)
    (again : Done tools settings layout sources final other another others report) :
    Tree.SameBytes final.tree other.tree := by
  classical
  obtain ⟨edits, -⟩ := again.edits.tree unlinked silent
  intro location
  by_cases file : layout.IsFile report.modules location
  · obtain ⟨path, listed, rfl⟩ := file
    obtain ⟨rooted, upless, -⟩ := direct.file named listed
    obtain ⟨bytes, plain, read, readAgain⟩ := done.agrees again path listed
    obtain ⟨-, -, old, held⟩ := Tree.placed_of_readBytes unlinked rooted upless plain read
    obtain ⟨-, -, new, heldAgain⟩ := Tree.placed_of_readBytes (edits.unlinked unlinked) rooted
      upless plain readAgain
    rw [Path.location_of_clear upless]
    exact .inr ⟨bytes, old, new, held, heldAgain⟩
  · -- Directories on the ways are there already, so nothing is put anywhere else.
    let keep : Location → Bool := fun place => decide (¬ layout.IsFile report.modules place)
    have same : Tree.SameAt keep final.tree other.tree := by
      refine edits.sameAt (fun place written => by simpa [keep] using written) ?_
      intro place way _
      rw [done.way unlinked direct named way]
      simp
    exact .inl (same.entry_eq (by simpa [keep] using file))

end Left

end Generation

end FfiBindings
