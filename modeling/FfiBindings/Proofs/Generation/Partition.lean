import FfiBindings.Proofs.Binding
import FfiBindings.Proofs.Extraction.Grammar
import FfiBindings.Proofs.Generation.Steps
import FfiBindings.Proofs.Index.Exports
import FfiBindings.Proofs.Layout
import FfiBindings.Proofs.Run.Records
import FfiBindings.Proofs.Settings.File
import FfiBindings.Proofs.Tree.Growth

set_option autoImplicit false

namespace FfiBindings

open ExceptT Exports

namespace Extraction

/-- A parser that finds no names with line ends in them. -/
def SignatureParser.KeepsLines (parser : SignatureParser) : Prop :=
  ∀ text, ∀ signature ∈ parser.extract text, OnLine signature.name

theorem Declares.isWord {text : List Char} {signature : Signature}
    (declared : Declares text signature) : IsWord signature.name := by
  obtain ⟨groups, proper, -, rfl⟩ := declared
  constructor
  · intro empty
    exact proper.name_ne_nil (String.ofList_eq_empty_iff.mp empty)
  · simpa [Groups.signature] using proper.word

theorem declarationParser_keepsLines : declarationParser.KeepsLines := by
  intro text signature member
  obtain ⟨head, declared⟩ := exists_declares_of_mem_extract member
  exact declared.isWord.onLine

end Extraction

namespace Generation

def isWarning (record : Log.Record) : Bool :=
  record.level == .warning && record.component == "generator"

structure Reading where
  source : SourceFile
  bytes : Text.Bytes

namespace Reading

variable (parser : Extraction.SignatureParser) (reading : Reading)

def declared : List Signature :=
  parser.extract (sourceText reading.bytes)

def exportsAny : Bool :=
  !(reading.declared parser).isEmpty

def bindings : BindingModule :=
  { source := reading.source.relativePath
    name := reading.source.moduleName
    signatures := firstOfEach (·.name) (reading.declared parser) }

def warnings : List Log.Record :=
  if reading.exportsAny parser then [] else [skippedRecord reading.source.relativePath]

end Reading

def indexEntry (layout : Layout) (bindings : BindingModule) : String × List String :=
  (layout.importPath bindings.name, bindings.functionNames)

def indexOf (layout : Layout) (modules : List BindingModule) : ExportIndex :=
  { entries := modules.map (indexEntry layout) }

theorem importPaths_indexOf (layout : Layout) (modules : List BindingModule) :
    (indexOf layout modules).importPaths = modules.map (layout.importPath ·.name) := by
  simp [ExportIndex.importPaths, indexOf, indexEntry]

def Progress.extend (layout : Layout) (parser : Extraction.SignatureParser) (progress : Progress)
    (reading : Reading) : Progress :=
  if reading.exportsAny parser then
    let entry := indexEntry layout (reading.bindings parser)
    { progress with
      modules := progress.modules ++ [reading.bindings parser]
      index := { entries := progress.index.entries ++ [entry] } }
  else
    { progress with skipped := progress.skipped ++ [reading.source.relativePath] }

/-- From a world on, these are the readings of the sources, each made when the sources before it had
been dealt with. -/
inductive ReadInTurn (emission : Emission) (parser : Extraction.SignatureParser) :
    Progress → World → List Reading → Prop
  | nil (progress : Progress) (world : World) : ReadInTurn emission parser progress world []
  | cons {progress next : Progress} {world : World} {reading : Reading} {rest : List Reading}
      (read : world.tree.readBytes world.session.cwd reading.source.path = .ok reading.bytes)
      (processed : (processSource emission parser progress reading.source).outcome world = .ok next)
      (onward : ReadInTurn emission parser next
        ((processSource emission parser progress reading.source).after world) rest) :
      ReadInTurn emission parser progress world (reading :: rest)

theorem moduleOf?_cases (parser : Extraction.SignatureParser) (reading : Reading) :
    (reading.exportsAny parser = false ∧
      moduleOf? parser reading.source reading.bytes = none) ∨
    (reading.exportsAny parser = true ∧ ∃ records,
      moduleOf? parser reading.source reading.bytes = some (reading.bindings parser, records) ∧
      ∀ record ∈ records, isWarning record = false) := by
  unfold moduleOf? Reading.exportsAny Reading.bindings Reading.declared
  cases parser.extract (sourceText reading.bytes) with
  | nil => exact .inl ⟨rfl, rfl⟩
  | cons first others =>
    refine .inr ⟨rfl, (deduplicate reading.source.relativePath (first :: others)).records, ?_, ?_⟩
    · simp only [deduplicate_kept]
    · intro record member
      obtain ⟨name, rfl⟩ := keepFirst_records member
      simp [isWarning, duplicateRecord]

end Generation

open Generation

theorem Emission.writeModule_notes (emission : Emission) (bindings : BindingModule)
    (world : World) :
    World.Notes isWarning [] world ((emission.writeModule bindings).after world) := by
  unfold writeModule
  refine rel_after_bind (Run.makeDirectories_notes _ _ world) fun _ _ => ?_
  refine rel_after_bind (by simpa using World.Notes.refl _ _) fun text _ => ?_
  refine rel_after_bind (Run.write_notes _ _ _ _) fun _ _ => ?_
  rw [after_bind_pure]
  exact Run.log_notes_other rfl _

namespace Generation

theorem processSource_cases {emission : Emission} {parser : Extraction.SignatureParser}
    {progress next : Progress} {source : SourceFile} {world : World}
    (succeeds : (processSource emission parser progress source).outcome world = .ok next) :
    (∃ bytes, world.tree.readBytes world.session.cwd source.path = .ok bytes ∧
      moduleOf? parser source bytes = none ∧
      next = { progress with skipped := progress.skipped ++ [source.relativePath] } ∧
      (processSource emission parser progress source).after world =
        world.log (skippedRecord source.relativePath)) ∨
    ∃ bytes bindings records target index,
      world.tree.readBytes world.session.cwd source.path = .ok bytes ∧
      moduleOf? parser source bytes = some (bindings, records) ∧
      (emission.writeModule bindings).outcome ((Run.logAll records).after world) = .ok target ∧
      progress.index.add (emission.layout.importPath bindings.name) bindings.functionNames =
        .ok index ∧
      next = { progress with modules := progress.modules ++ [bindings], index } ∧
      (processSource emission parser progress source).after world =
        (emission.writeModule bindings).after ((Run.logAll records).after world) := by
  obtain ⟨here, asked, succeeds, after⟩ := outcome_bind_eq_ok succeeds
  cases asked
  rw [Run.cwd_after] at succeeds after
  obtain ⟨bytes, read, succeeds, afterRead⟩ := outcome_bind_eq_ok succeeds
  rw [Run.ask_outcome, Except.mapError_eq_ok] at read
  rw [Run.ask_after] at succeeds afterRead
  rw [processSource, after, afterRead]
  cases found : moduleOf? parser source bytes with
  | none =>
    simp only [found] at succeeds ⊢
    obtain ⟨_, -, succeeds, afterLog⟩ := outcome_bind_eq_ok succeeds
    exact .inl ⟨bytes, read, found, (Except.ok.inj succeeds).symm, afterLog⟩
  | some module =>
    obtain ⟨bindings, records⟩ := module
    simp only [found] at succeeds ⊢
    obtain ⟨_, -, succeeds, afterRecords⟩ := outcome_bind_eq_ok succeeds
    obtain ⟨target, wrote, succeeds, afterWrite⟩ := outcome_bind_eq_ok succeeds
    obtain ⟨index, added, succeeds, afterIndex⟩ := outcome_bind_eq_ok succeeds
    refine .inr ⟨bytes, bindings, records, target, index, read, found, wrote, ?_,
      (Except.ok.inj succeeds).symm, ?_⟩
    · unfold addToIndex at added
      split at added
      · next accepted => rw [accepted, ← Except.ok.inj added]
      · cases added
    · rw [afterRecords, afterWrite, afterIndex, after_pure, addToIndex_after]

theorem add_eq_ok {index next : ExportIndex} {importPath : String} {names : List String}
    (added : index.add importPath names = .ok next) :
    importPath ∉ index.importPaths ∧
      next = { entries := index.entries ++ [(importPath, names)] } := by
  unfold ExportIndex.add at added
  split at added
  · cases added
  · next fresh =>
    rw [ExportIndex.contains, List.contains_iff_mem] at fresh
    exact ⟨fresh, (Except.ok.inj added).symm⟩

theorem processSource_eq_ok {emission : Emission} {parser : Extraction.SignatureParser}
    {progress next : Progress} {source : SourceFile} {world : World}
    (succeeds : (processSource emission parser progress source).outcome world = .ok next) :
    ∃ reading : Reading, reading.source = source ∧
      world.tree.readBytes world.session.cwd source.path = .ok reading.bytes ∧
      next = progress.extend emission.layout parser reading ∧
      World.Notes isWarning (reading.warnings parser) world
        ((processSource emission parser progress source).after world) := by
  rcases processSource_cases succeeds with ⟨bytes, read, found, rfl, after⟩ |
    ⟨bytes, bindings, records, target, index, read, found, -, added, rfl, after⟩
  · refine ⟨⟨source, bytes⟩, rfl, read, ?_⟩
    rw [after]
    rcases moduleOf?_cases parser ⟨source, bytes⟩ with ⟨nothing, -⟩ | ⟨-, records, other, -⟩
    · simp only [Progress.extend, Reading.warnings, nothing]
      exact ⟨rfl, Run.log_notes (by simp [isWarning, skippedRecord]) world⟩
    · cases found.symm.trans other
  · refine ⟨⟨source, bytes⟩, rfl, read, ?_⟩
    rw [after, (add_eq_ok added).2]
    rcases moduleOf?_cases parser ⟨source, bytes⟩ with
      ⟨-, other⟩ | ⟨something, others, same, duplicates⟩
    · cases found.symm.trans other
    · obtain ⟨rfl, rfl⟩ : bindings = _ ∧ records = _ := by simpa using found.symm.trans same
      simp only [Progress.extend, Reading.warnings, something, if_true]
      exact ⟨rfl, (Run.logAll_notes duplicates world).trans
        (Emission.writeModule_notes emission _ _)⟩

theorem processAll_eq_ok {emission : Emission} {parser : Extraction.SignatureParser}
    {progress last : Progress} {sources : List SourceFile} {world : World}
    (succeeds : (processAll emission parser progress sources).outcome world = .ok last) :
    ∃ readings : List Reading, readings.map (·.source) = sources ∧
      ReadInTurn emission parser progress world readings ∧
      last = readings.foldl (Progress.extend emission.layout parser) progress ∧
      World.Notes isWarning (readings.flatMap (·.warnings parser)) world
        ((processAll emission parser progress sources).after world) := by
  induction sources generalizing progress world with
  | nil =>
    cases succeeds
    exact ⟨[], rfl, .nil _ world, rfl, World.Notes.refl _ _⟩
  | cons source rest ih =>
    obtain ⟨next, processed, succeeds, after⟩ := outcome_bind_eq_ok succeeds
    obtain ⟨reading, rfl, read, extended, noted⟩ := processSource_eq_ok processed
    obtain ⟨readings, rfl, inTurn, folded, notedLater⟩ := ih succeeds
    refine ⟨reading :: readings, rfl, .cons read processed inTurn, ?_, ?_⟩
    · rw [List.foldl_cons, ← extended, folded]
    · rw [processAll, after, List.flatMap_cons]
      exact noted.trans notedLater

theorem foldl_extend (layout : Layout) (parser : Extraction.SignatureParser)
    (readings : List Reading) (progress : Progress) :
    readings.foldl (Progress.extend layout parser) progress =
      { modules := progress.modules ++
          (readings.filter (·.exportsAny parser)).map (·.bindings parser)
        skipped := progress.skipped ++
          (readings.filter (!·.exportsAny parser)).map (·.source.relativePath)
        index :=
          { entries := progress.index.entries ++
              ((readings.filter (·.exportsAny parser)).map (·.bindings parser)).map
                (indexEntry layout) } } := by
  induction readings generalizing progress with
  | nil => simp
  | cons reading rest ih =>
    rw [List.foldl_cons, ih]
    cases found : reading.exportsAny parser with
    | true => simp [Progress.extend, found]
    | false => simp [Progress.extend, found]

theorem flatMap_warnings (parser : Extraction.SignatureParser) (readings : List Reading) :
    readings.flatMap (·.warnings parser) =
      ((readings.filter (!·.exportsAny parser)).map (·.source.relativePath)).map
        skippedRecord := by
  induction readings with
  | nil => rfl
  | cons reading rest ih =>
    rw [List.flatMap_cons, ih]
    cases found : reading.exportsAny parser with
    | true => simp [Reading.warnings, found]
    | false => simp [Reading.warnings, found]

end Generation

namespace Emission

theorem placeIndex_notes (emission : Emission) (index : ExportIndex) (text : String)
    (world : World) :
    World.Notes isWarning [] world ((emission.placeIndex index text).after world) := by
  unfold placeIndex
  refine rel_after_bind (Run.makeDirectories_notes _ _ world) fun _ _ => ?_
  refine rel_after_bind (Run.write_notes _ _ _ _) fun _ _ => ?_
  rw [after_bind_pure]
  exact Run.log_notes_other rfl _

theorem placeIndex_holdsText {emission : Emission} {index : ExportIndex} {text : String}
    {target : Path} {world : World}
    (succeeds : (emission.placeIndex index text).outcome world = .ok target) :
    target = emission.layout.indexFile ∧
      ((emission.placeIndex index text).after world).HoldsText emission.layout.indexFile text := by
  obtain ⟨_, -, succeeds, afterDirectories⟩ := outcome_bind_eq_ok succeeds
  obtain ⟨_, wrote, succeeds, afterWrite⟩ := outcome_bind_eq_ok succeeds
  obtain ⟨_, -, succeeds, -⟩ := outcome_bind_eq_ok succeeds
  rw [placeIndex, afterDirectories, afterWrite]
  exact ⟨(Except.ok.inj succeeds).symm, (Run.write_holdsText wrote).log _⟩

theorem writeIndex_notes (emission : Emission) (typeFilter : Bool) (index : ExportIndex)
    (world : World) :
    World.Notes isWarning [] world ((emission.writeIndex typeFilter index).after world) := by
  rw [writeIndex_eq]
  refine rel_after_bind ?_ fun text _ => ?_
  · rw [indexText_after]
    refine Run.logAll_notes (fun record member => ?_) world
    obtain ⟨collision, -, rfl⟩ := List.mem_map.mp member
    simp [isWarning, ExportIndex.Collision.record]
  refine rel_after_bind (by simpa using World.Notes.refl _ _) fun present _ => ?_
  cases present
  · exact placeIndex_notes emission index text _
  · exact rel_after_bind (Run.unlink_notes _ _ _)
      fun _ _ => placeIndex_notes emission index text _

theorem writeIndex_holds {emission : Emission} {typeFilter : Bool} {index : ExportIndex}
    {target : Path} {world : World}
    (succeeds : (emission.writeIndex typeFilter index).outcome world = .ok target) :
    target = emission.layout.indexFile ∧
      ∃ text, (emission.indexText typeFilter index).outcome world = .ok text ∧
        ((emission.writeIndex typeFilter index).after world).HoldsText
          emission.layout.indexFile text := by
  rw [writeIndex_eq] at succeeds ⊢
  obtain ⟨text, made, succeeds, afterText⟩ := outcome_bind_eq_ok succeeds
  obtain ⟨present, -, succeeds, afterAsked⟩ := outcome_bind_eq_ok succeeds
  rw [afterText, afterAsked]
  cases present
  · obtain ⟨placed, holds⟩ := placeIndex_holdsText succeeds
    exact ⟨placed, text, made, holds⟩
  · obtain ⟨_, -, succeeds, afterUnlink⟩ := outcome_bind_eq_ok succeeds
    obtain ⟨placed, holds⟩ := placeIndex_holdsText succeeds
    simp only [if_true]
    rw [afterUnlink]
    exact ⟨placed, text, made, holds⟩

theorem indexText_standard {emission : Emission} (standard : emission.templatesDir = none)
    {typeFilter : Bool} {index : ExportIndex} {text : String} {world : World}
    (made : (emission.indexText typeFilter index).outcome world = .ok text) :
    text = FfiBindings.indexText index := by
  obtain ⟨_, -, made, -⟩ := outcome_bind_eq_ok made
  rw [standard] at made
  exact (Except.ok.inj made).symm

theorem writeIndex_holdsText {emission : Emission} (standard : emission.templatesDir = none)
    {typeFilter : Bool} {index : ExportIndex} {target : Path} {world : World}
    (succeeds : (emission.writeIndex typeFilter index).outcome world = .ok target) :
    ((emission.writeIndex typeFilter index).after world).HoldsText emission.layout.indexFile
      (FfiBindings.indexText index) := by
  obtain ⟨-, text, made, holds⟩ := writeIndex_holds succeeds
  rwa [indexText_standard standard made] at holds

end Emission

namespace Compiler.Native

theorem removeStray_notes (stray : Path) (world : World) :
    World.Notes isWarning [] world ((removeStray stray).after world) := by
  unfold removeStray
  refine rel_after_bind (by simpa using World.Notes.refl _ _) fun present _ => ?_
  cases present
  · exact World.Notes.refl _ _
  · exact Run.unlink_notes _ _ _

theorem removeStrays_notes (paths : List Path) (world : World) :
    World.Notes isWarning [] world ((paths.forM removeStray).after world) := by
  induction paths generalizing world with
  | nil => exact World.Notes.refl _ world
  | cons stray rest ih =>
    change World.Notes isWarning [] world
      (after (removeStray stray >>= fun _ => rest.forM removeStray) world)
    exact rel_after_bind (removeStray_notes stray world) fun _ _ => ih _

theorem call_notes (compiler : Native) (source : SourceFile) (invocation : Invocation)
    (world : World) :
    World.Notes isWarning [] world ((compiler.call source invocation).after world) := by
  rw [call_after]
  exact World.notes_of_records_eq rfl

theorem compileOne_notes (compiler : Native) (layout : Layout) (source : SourceFile)
    (world : World) :
    World.Notes isWarning [] world ((compiler.compileOne layout source).after world) := by
  unfold compileOne
  refine rel_after_bind (Run.makeDirectories_notes _ _ world) fun _ _ => ?_
  refine rel_after_bind (Run.log_notes_other rfl _) fun _ _ => ?_
  refine rel_after_bind (call_notes _ _ _ _) fun _ _ => ?_
  rw [after_bind_pure]
  exact removeStrays_notes _ _

theorem compile_notes (compiler : Native) (layout : Layout) (sources : List SourceFile)
    (world : World) :
    World.Notes isWarning [] world ((compiler.compile layout sources).after world) := by
  induction sources generalizing world with
  | nil => exact World.Notes.refl _ world
  | cons source rest ih =>
    unfold compile
    refine rel_after_bind (compileOne_notes compiler layout source world) fun _ _ => ?_
    rw [after_bind_pure]
    exact ih _

end Compiler.Native

/-- A compile step that does not warn in the generator's name. -/
def CompileStep.Quiet (step : CompileStep) : Prop :=
  ∀ layout sources world, World.Notes isWarning [] world ((step layout sources).after world)

namespace Generation

theorem artifactsOf_notes {tools : Tools}
    (quiet : ∀ step, tools.compiler = some step → step.Quiet) (settings : Settings)
    (skipCompile : Bool) (layout : Layout) (sources : List SourceFile) (world : World) :
    World.Notes isWarning [] world
      ((artifactsOf tools settings skipCompile layout sources).after world) := by
  unfold artifactsOf
  split
  · exact World.Notes.refl _ world
  · unfold compileStep
    cases given : tools.compiler with
    | some step => exact quiet step given layout sources world
    | none => exact Compiler.Native.compile_notes _ layout sources world

theorem findParser_outcome (tools : Tools) (settings : Settings) (world other : World) :
    (findParser tools settings).outcome world = (findParser tools settings).outcome other := by
  unfold findParser
  split
  · rfl
  · split <;> rfl

def prepared (tools : Tools) (settings : Settings) (skipCompile : Bool) (layout : Layout)
    (sources : List SourceFile) (world : World) : World :=
  (Run.makeDirectories layout.modulesDir).after
    ((artifactsOf tools settings skipCompile layout sources).after
      (world.log (startRecord sources.length layout.sourceDir)))

theorem prepared_notes {tools : Tools} (quiet : ∀ step, tools.compiler = some step → step.Quiet)
    (settings : Settings) (skipCompile : Bool) (layout : Layout) (sources : List SourceFile)
    (world : World) :
    World.Notes isWarning [] world (prepared tools settings skipCompile layout sources world) := by
  have started : World.Notes isWarning [] world
      (world.log (startRecord sources.length layout.sourceDir)) := World.notes_log_other rfl world
  exact (started.trans (artifactsOf_notes quiet settings skipCompile layout sources _)).trans
    (Run.makeDirectories_notes _ _ _)

theorem Reading.onLine_functionNames {parser : Extraction.SignatureParser}
    (keepsLines : parser.KeepsLines) (reading : Reading) :
    ∀ name ∈ (reading.bindings parser).functionNames, OnLine name := by
  intro name exported
  obtain ⟨signature, kept, rfl⟩ := List.mem_map.mp exported
  exact keepsLines _ signature (mem_of_mem_firstOfEach kept)

theorem exportAllPaths_indexOf {layout : Layout} {modules : List BindingModule}
    (quotable : ∀ path ∈ (indexOf layout modules).importPaths, Quotable path)
    (named : ∀ bindings ∈ modules, ∀ name ∈ bindings.functionNames, OnLine name) :
    exportAllPaths (indexText (indexOf layout modules)) =
      modules.map (layout.importPath ·.name) := by
  rw [exportAllPaths_indexText quotable, importPaths_indexOf]
  intro collision member
  obtain ⟨⟨entry, inside, exported⟩, first⟩ := ExportIndex.mem_collisions member
  obtain ⟨bindings, listed, rfl⟩ := List.mem_map.mp inside
  exact ⟨named bindings listed _ exported, quotable _ first⟩

end Generation

variable {world : World} {directory : Path} {root : Location} {settings : Settings}

theorem generate_steps {tools : Tools} {skipCompile : Bool} {report : Report}
    (resolved : world.session.resolve world.tree directory = .ok root)
    (accepted : Settings.load world.session world.tree root.path = .ok settings)
    (returned : (generate tools skipCompile directory).outcome world = .ok report) :
    ∃ parser progress sources emission compiled start written,
      world.tree.isDirectory world.session.cwd root.path = .ok true ∧
      (layoutOf root.path settings.layout).outcome world = .ok report.layout ∧
      world.tree.isDirectory world.session.cwd report.layout.sourceDir = .ok true ∧
      (findParser tools settings).outcome world = .ok parser ∧
      sources = discover world.tree report.layout.sourceDir settings.excludePaths ∧
      emission = ⟨report.layout, settings.aliases, settings.templatesDir⟩ ∧
      (artifactsOf tools settings skipCompile report.layout sources).outcome
        (world.log (startRecord sources.length report.layout.sourceDir)) = .ok report.artifacts ∧
      compiled = (artifactsOf tools settings skipCompile report.layout sources).after
        (world.log (startRecord sources.length report.layout.sourceDir)) ∧
      (Run.makeDirectories report.layout.modulesDir).outcome compiled = .ok () ∧
      start = (Run.makeDirectories report.layout.modulesDir).after compiled ∧
      (processAll emission parser {} sources).outcome start = .ok progress ∧
      written = (processAll emission parser {} sources).after start ∧
      (emission.writeIndex true progress.index).outcome written = .ok report.index ∧
      report.modules = progress.modules ∧ report.skipped = progress.skipped ∧
      (generate tools skipCompile directory).after world =
        ((emission.writeIndex true progress.index).after written).log
          (doneRecord progress.modules.length progress.skipped.length) := by
  unfold generate at returned ⊢
  obtain ⟨place, found, returned, afterResolve⟩ := outcome_bind_eq_ok returned
  rw [Run.resolve_outcome, resolved] at found
  cases found
  rw [Run.resolve_after] at returned afterResolve
  obtain ⟨present, asked, returned, afterPresent⟩ := outcome_bind_eq_ok returned
  rw [Run.isDirectory_outcome, Except.mapError_eq_ok] at asked
  rw [Run.isDirectory_after] at returned afterPresent
  cases present
  · cases returned
  obtain ⟨read, loaded, returned, afterLoad⟩ := outcome_bind_eq_ok returned
  rw [Run.loadSettings_outcome, accepted] at loaded
  cases loaded
  rw [Run.loadSettings_after] at returned afterLoad
  obtain ⟨layout, laidOut, returned, afterLayout⟩ := outcome_bind_eq_ok returned
  rw [layoutOf_after] at returned afterLayout
  obtain ⟨sourced, askedSources, returned, afterSources⟩ := outcome_bind_eq_ok returned
  rw [Run.isDirectory_outcome, Except.mapError_eq_ok] at askedSources
  rw [Run.isDirectory_after] at returned afterSources
  cases sourced
  · cases returned
  obtain ⟨state, got, returned, afterGet⟩ := outcome_bind_eq_ok returned
  cases got
  obtain ⟨_, -, returned, afterStart⟩ := outcome_bind_eq_ok returned
  obtain ⟨artifacts, compiled, returned, afterCompile⟩ := outcome_bind_eq_ok returned
  obtain ⟨parser, parsed, returned, afterParser⟩ := outcome_bind_eq_ok returned
  rw [findParser_outcome tools settings _ world] at parsed
  rw [findParser_after] at returned afterParser
  obtain ⟨_, made, returned, afterDirectory⟩ := outcome_bind_eq_ok returned
  obtain ⟨progress, processed, returned, afterAll⟩ := outcome_bind_eq_ok returned
  obtain ⟨index, indexed, returned, afterIndex⟩ := outcome_bind_eq_ok returned
  obtain ⟨_, -, returned, afterDone⟩ := outcome_bind_eq_ok returned
  cases returned
  refine ⟨parser, progress, _, _, _, _, _, asked, laidOut, askedSources, parsed, rfl, rfl, compiled,
    rfl, made, rfl, processed, rfl, indexed, rfl, rfl, ?_⟩
  exact afterResolve.trans <| afterPresent.trans <| afterLoad.trans <| afterLayout.trans <|
    afterSources.trans <| afterGet.trans <| afterStart.trans <| afterCompile.trans <|
    afterParser.trans <| afterDirectory.trans <| afterAll.trans <| afterIndex.trans afterDone

theorem generate_eq_ok {tools : Tools} {skipCompile : Bool} {report : Report}
    (resolved : world.session.resolve world.tree directory = .ok root)
    (accepted : Settings.load world.session world.tree root.path = .ok settings)
    (returned : (generate tools skipCompile directory).outcome world = .ok report) :
    ∃ parser progress sources emission start written,
      (layoutOf root.path settings.layout).outcome world = .ok report.layout ∧
      world.tree.isDirectory world.session.cwd report.layout.sourceDir = .ok true ∧
      (findParser tools settings).outcome world = .ok parser ∧
      sources = discover world.tree report.layout.sourceDir settings.excludePaths ∧
      emission = ⟨report.layout, settings.aliases, settings.templatesDir⟩ ∧
      start = prepared tools settings skipCompile report.layout sources world ∧
      (processAll emission parser {} sources).outcome start = .ok progress ∧
      written = (processAll emission parser {} sources).after start ∧
      (emission.writeIndex true progress.index).outcome written = .ok report.index ∧
      report.modules = progress.modules ∧ report.skipped = progress.skipped ∧
      (generate tools skipCompile directory).after world =
        ((emission.writeIndex true progress.index).after written).log
          (doneRecord progress.modules.length progress.skipped.length) := by
  obtain ⟨parser, progress, sources, emission, _, start, written, -, laidOut, sourced, parsed,
    sources_eq, emission_eq, -, rfl, -, start_eq, processed⟩ :=
    generate_steps resolved accepted returned
  exact ⟨parser, progress, sources, emission, start, written, laidOut, sourced, parsed, sources_eq,
    emission_eq, start_eq, processed⟩

theorem quotable_importPath_of_mem_discover
    (plainTree : ∀ entry ∈ world.tree.entries, ∀ part ∈ entry.1, Quotable part)
    (plainLayout : Quotable settings.layout.modulesDir) (relative : settings.layout.Relative)
    {layout : Layout} (laidOut : (layoutOf root.path settings.layout).outcome world = .ok layout)
    (sourced : world.tree.isDirectory world.session.cwd layout.sourceDir = .ok true)
    {source : SourceFile} (member : source ∈ discover world.tree layout.sourceDir
      settings.excludePaths) : Quotable (layout.importPath source.moduleName) := by
  obtain ⟨place, -, made, -⟩ := outcome_bind_eq_ok laidOut
  cases made
  apply Layout.quotable_importPath
  · intro part inside
    rcases Path.mem_div_parts inside with above | below
    · -- The sources were found, so every name on the way to them is in the tree.
      have onWay : part ∈ (place.path / settings.layout.sourceDir).parts := by
        rw [Path.div_parts_of_relative relative.source]
        exact List.mem_append_left _ above
      rcases Tree.named_of_status (Tree.isDirectory_eq_true.mp sourced) part onWay with
        rfl | ⟨entry, listed, named⟩
      · exact ⟨by decide, by decide⟩
      · exact plainTree entry listed part named
    · exact plainLayout.partsOf part below
  · obtain ⟨start, location, entry, listed, -, path, suffixed⟩ := mem_discover member
    have slash : Quotable "/" := by decide
    have whole : Quotable source.relativePath := by
      rw [path]
      exact slash.intercalate fun part below =>
        plainTree _ listed part (List.mem_of_mem_drop below)
    rw [suffixed] at whole
    exact whole.of_append

/-- No source is lost, doubled or put out of order: those in which the parser finds something are
the modules of the report, with the first declaration of each name, and the others are skipped, each
with one warning. The index file exports everything of each module and of nothing else. -/
theorem sources_accounted_for {tools : Tools} {skipCompile : Bool} {report : Report}
    (quiet : ∀ step, tools.compiler = some step → step.Quiet)
    (resolved : world.session.resolve world.tree directory = .ok root)
    (accepted : Settings.load world.session world.tree root.path = .ok settings)
    (standard : settings.templatesDir = none)
    (plainTree : ∀ entry ∈ world.tree.entries, ∀ part ∈ entry.1, Quotable part)
    (plainLayout : Quotable settings.layout.modulesDir)
    (returned : (generate tools skipCompile directory).outcome world = .ok report) :
    ∃ (parser : Extraction.SignatureParser) (readings : List Reading) (text : String),
      (findParser tools settings).outcome world = .ok parser ∧
      readings.map (·.source) =
        discover world.tree report.layout.sourceDir settings.excludePaths ∧
      (readings.map (·.source.relativePath)).Pairwise (· ≤ ·) ∧
      ReadInTurn ⟨report.layout, settings.aliases, none⟩ parser {}
        (prepared tools settings skipCompile report.layout (readings.map (·.source)) world)
        readings ∧
      report.modules = (readings.filter (·.exportsAny parser)).map (·.bindings parser) ∧
      report.skipped = (readings.filter (!·.exportsAny parser)).map (·.source.relativePath) ∧
      ((generate tools skipCompile directory).after world).HoldsText report.layout.indexFile text ∧
      leadingPaths (lines text.toList).tail =
        report.modules.map (report.layout.importPath ·.name) ∧
      (parser.KeepsLines →
        exportAllPaths text = report.modules.map (report.layout.importPath ·.name)) ∧
      World.Notes isWarning (report.skipped.map skippedRecord) world
        ((generate tools skipCompile directory).after world) := by
  obtain ⟨parser, progress, sources, emission, start, written, laidOut, sourced, parsed, rfl, rfl,
    rfl, processed, rfl, indexed, modules, skipped, final⟩ :=
    generate_eq_ok resolved accepted returned
  obtain ⟨readings, read, inTurn, folded, noted⟩ := processAll_eq_ok processed
  rw [foldl_extend] at folded
  have exporting : report.modules =
      (readings.filter (·.exportsAny parser)).map (·.bindings parser) := by
    rw [modules, folded]
    rfl
  have without : report.skipped =
      (readings.filter (!·.exportsAny parser)).map (·.source.relativePath) := by
    rw [skipped, folded]
    rfl
  have index : progress.index = indexOf report.layout report.modules := by
    rw [exporting, folded]
    rfl
  rw [flatMap_warnings, ← without] at noted
  rw [index] at indexed final
  have quotable : ∀ path ∈ (indexOf report.layout report.modules).importPaths, Quotable path := by
    rw [importPaths_indexOf, exporting, List.map_map]
    refine List.forall_mem_map.mpr fun reading inside => ?_
    have listed : reading.source ∈ readings.map (·.source) :=
      List.mem_map_of_mem (List.mem_filter.mp inside).1
    rw [read] at listed
    exact quotable_importPath_of_mem_discover plainTree plainLayout
      (Settings.load_relative accepted) laidOut sourced listed
  refine ⟨parser, readings, indexText (indexOf report.layout report.modules), parsed, read,
    ?_, ?_, exporting, without, ?_, ?_, ?_, ?_⟩
  · have sorted := discover_sorted world.tree report.layout.sourceDir settings.excludePaths
    rwa [← read, List.map_map] at sorted
  · rw [read, ← standard]
    exact inTurn
  · rw [final]
    exact (Emission.writeIndex_holdsText standard indexed).log _
  · rw [leadingPaths_indexText quotable, importPaths_indexOf]
  · intro keepsLines
    refine exportAllPaths_indexOf quotable fun bindings listed => ?_
    rw [exporting] at listed
    obtain ⟨reading, -, rfl⟩ := List.mem_map.mp listed
    exact reading.onLine_functionNames keepsLines
  -- Only the skipped sources are warned about; what comes before and after them is silent.
  · have before := prepared_notes quiet settings skipCompile report.layout
      (discover world.tree report.layout.sourceDir settings.excludePaths) world
    have afterwards := Emission.writeIndex_notes
      ⟨report.layout, settings.aliases, settings.templatesDir⟩ true
      (indexOf report.layout report.modules)
    have done : isWarning (doneRecord progress.modules.length progress.skipped.length) = false :=
      rfl
    have all := ((before.trans noted).trans (afterwards _)).trans (World.notes_log_other done _)
    rw [final]
    simpa using all

-- A project with its own directory for modules, a source that exports nothing, and one that is
-- excluded. Two sources export `f`.
def mixedProject : World :=
  { tree :=
      { entries :=
          [ (["p"], .directory),
            (["p", ".rustport.yml"],
              .file (Text.utf8 "layout: \x7bmodules_dir: gen\x7d\nexclude_paths: [old]\n") false),
            (["p", "rs"], .directory),
            (["p", "rs", "a.rs"],
              .file (Text.utf8 "#[no_mangle] pub extern \"C\" fn f() \x7b\x7d") false),
            (["p", "rs", "b.rs"], .file (Text.utf8 "fn g() \x7b\x7d") false),
            (["p", "rs", "net"], .directory),
            (["p", "rs", "net", "c.rs"],
              .file (Text.utf8 "#[no_mangle] pub extern \"C\" fn f(x: u8) -> bool \x7b x > 0 \x7d")
                false),
            (["p", "rs", "old"], .directory),
            (["p", "rs", "old", "d.rs"],
              .file (Text.utf8 "#[no_mangle] pub extern \"C\" fn h() \x7b\x7d") false) ] }
    session := { cwd := [], homes := [] }
    time := "" }

def mixedSettings : Settings :=
  { root := Location.path ["p"], layout := { modulesDir := "gen" }, excludePaths := ["old"] }

def mixedLayout : Layout := Layout.ofNames (Location.path ["p"]) mixedSettings.layout

def mixedSource (directories : List String) (stem : String) : SourceFile :=
  let name := "/".intercalate (directories ++ [stem])
  { path := Location.path (["p", "rs"] ++ directories ++ [stem ++ ".rs"])
    relativePath := name ++ ".rs"
    moduleName := name }

def mixedSources : List SourceFile :=
  [mixedSource [] "a", mixedSource [] "b", mixedSource ["net"] "c"]

def mixedFirst : BindingModule :=
  { source := "a.rs"
    name := "a"
    signatures := [{ name := "f", parameters := [], returns := "void" }] }

def mixedNested : BindingModule :=
  { source := "net/c.rs"
    name := "net/c"
    signatures := [{ name := "f", parameters := [⟨"x", "u8"⟩], returns := "bool" }] }

def mixedModules : List BindingModule := [mixedFirst, mixedNested]

theorem mixedProject_regular : mixedProject.tree.Regular := by decide

theorem mixedProject_load :
    Settings.load mixedProject.session mixedProject.tree (Location.path ["p"]) =
      .ok mixedSettings :=
  @Settings.load_text mixedProject.session mixedProject.tree ["p"] _ _ mixedProject_regular.unlinked
    (by decide) (by decide) (by decide) (mixedProject_regular.readBytes_held rfl _)
    (by decide +kernel) ⟨by decide, by rintro (_ | _ | _) <;> decide⟩ (by decide)

theorem mixedProject_accepted :
    Accepted mixedProject.session mixedProject.tree (Location.path ["p"]) ["p"] mixedSettings
      mixedSources :=
  @Accepted.of_regular _ _ mixedProject_regular ["p"] ["p", "rs"] _ _ rfl mixedProject_load rfl rfl
    (by decide +kernel) (by decide)

def standardTools : Tools := { runner := .linking }

def mixedIndex : ExportIndex := indexOf mixedLayout mixedModules

def mixedReport : Report :=
  { layout := mixedLayout
    modules := mixedModules
    skipped := ["b.rs"]
    artifacts := []
    index := mixedLayout.indexFile }

def mixedBinding (bindings : BindingModule) : Entry :=
  .file (Text.utf8 (bindingText bindings.source (mixedLayout.libraryPath bindings.name)
    (bindings.functions []))) false

def mixedPrepared : Tree := mixedProject.tree.put ["p", "gen"] .directory

def mixedStarted : Tree := mixedPrepared.put ["p", "gen", "a.ts"] (mixedBinding mixedFirst)

def mixedDeepened : Tree := mixedStarted.put ["p", "gen", "net"] .directory

def mixedBound : Tree := mixedDeepened.put ["p", "gen", "net", "c.ts"] (mixedBinding mixedNested)

def mixedGenerated : Tree :=
  mixedBound.put ["p", "index.ts"] (.file (Text.utf8 (indexText mixedIndex)) false)

open Run in
theorem mixedSources_yield :
    Yields (processAll ⟨mixedLayout, [], none⟩ Extraction.declarationParser {} mixedSources)
      mixedProject.session mixedPrepared
      { modules := mixedModules, skipped := ["b.rs"], index := mixedIndex } mixedBound := by
  have prepared : mixedPrepared.Regular := by decide
  have started : mixedStarted.Regular := by decide
  have deepened : mixedDeepened.Regular := by decide
  have first := prepared.write_free (by decide : mixedPrepared.Vacancy ["p", "gen", "a.ts"]) []
  have deeper := started.makeDirectories_free
    (by decide : mixedStarted.Vacancy ["p", "gen", "net"]) []
  have nested := deepened.write_free
    (by decide : mixedDeepened.Vacancy ["p", "gen", "net", "c.ts"]) []
  have one : Yields (processSource ⟨mixedLayout, [], none⟩ Extraction.declarationParser {}
      (mixedSource [] "a")) mixedProject.session mixedPrepared
      { modules := [mixedFirst], index := indexOf mixedLayout [mixedFirst] } mixedStarted :=
    yields_processSource (prepared.readBytes_held rfl _)
      (by decide +kernel : _ = some (mixedFirst, []))
      (yields_writeModule rfl (prepared.makeDirectories_held (by decide) rfl _) (first _)) rfl
  have two : Yields (processSource ⟨mixedLayout, [], none⟩ Extraction.declarationParser
      { modules := [mixedFirst], index := indexOf mixedLayout [mixedFirst] } (mixedSource [] "b"))
      mixedProject.session mixedStarted
      { modules := [mixedFirst], skipped := ["b.rs"], index := indexOf mixedLayout [mixedFirst] }
      mixedStarted :=
    yields_processSource_skipped (started.readBytes_held rfl _) (by decide +kernel)
  have three : Yields (processSource ⟨mixedLayout, [], none⟩ Extraction.declarationParser
      { modules := [mixedFirst], skipped := ["b.rs"], index := indexOf mixedLayout [mixedFirst] }
      (mixedSource ["net"] "c")) mixedProject.session mixedStarted
      { modules := mixedModules, skipped := ["b.rs"], index := mixedIndex } mixedBound :=
    yields_processSource (started.readBytes_held rfl _)
      (by decide +kernel : _ = some (mixedNested, []))
      (yields_writeModule rfl deeper (nested _)) (by decide +kernel)
  exact one.bind (two.bind (three.bind (yields_pure _ _ _)))

open Run in
theorem mixedProject_yields :
    Yields (generate standardTools true (Location.path ["p"])) mixedProject.session
      mixedProject.tree mixedReport mixedGenerated := by
  have bound : mixedBound.Regular := by decide
  have free : mixedBound.Vacancy ["p", "index.ts"] := by decide
  have parsed : Yields (findParser standardTools mixedSettings) mixedProject.session
      mixedProject.tree Extraction.declarationParser mixedProject.tree := yields_pure _ _ _
  have modules := mixedProject_regular.makeDirectories_free
    (by decide : mixedProject.tree.Vacancy ["p", "gen"]) []
  have indexed : Yields (Emission.writeIndex ⟨mixedLayout, [], none⟩ true mixedIndex)
      mixedProject.session mixedBound mixedLayout.indexFile mixedGenerated :=
    yields_writeIndex (bound.pathExists_free free _)
      (yields_placeIndex rfl (bound.makeDirectories_held (by decide) rfl _)
        (bound.write_free free _ _))
  have produced : Yields (produce standardTools true mixedSettings mixedLayout mixedSources)
      mixedProject.session mixedProject.tree mixedReport mixedGenerated :=
    yields_produce parsed modules rfl mixedSources_yield indexed
  exact ends_generate mixedProject_accepted produced

theorem mixedProject_accounted_for :
    (generate standardTools true (Location.path ["p"])).outcome mixedProject = .ok mixedReport ∧
      (∃ text, World.HoldsText ((generate standardTools true (Location.path ["p"])).after mixedProject)
          (Location.path ["p", "index.ts"]) text ∧
        exportAllPaths text = ["./gen/a", "./gen/net/c"]) ∧
      World.Notes isWarning [skippedRecord "b.rs"] mixedProject
        ((generate standardTools true (Location.path ["p"])).after mixedProject) := by
  have returned := (mixedProject_yields mixedProject ⟨rfl, rfl, rfl⟩).1
  have quiet : ∀ step, standardTools.compiler = some step → step.Quiet :=
    fun _ given => nomatch given
  obtain ⟨parser, readings, text, parsed, -, -, -, -, -, holds, -, whole, noted⟩ :=
    sources_accounted_for quiet mixedProject_accepted.resolved mixedProject_load rfl (by decide) (by decide)
      returned
  cases parsed
  exact ⟨returned, ⟨text, holds, (whole Extraction.declarationParser_keepsLines).trans
    (by decide +kernel)⟩, noted⟩

def onlyF : Extraction.SignatureParser :=
  { name := "only-f", extract := fun _ => [{ name := "f", parameters := [], returns := "void" }] }

def smallTools : Tools := { parser := some onlyF, runner := .linking }

def smallLayout : Layout := Layout.ofNames (Location.path ["p"]) {}

def smallSource : SourceFile :=
  { path := Location.path ["p", "rs", "a.rs"], relativePath := "a.rs", moduleName := "a" }

def smallModule : BindingModule :=
  { source := "a.rs"
    name := "a"
    signatures := [{ name := "f", parameters := [], returns := "void" }] }

def smallIndex : ExportIndex :=
  { entries := [indexEntry smallLayout smallModule] }

def smallReport : Report :=
  { layout := smallLayout
    modules := [smallModule]
    skipped := []
    artifacts := []
    index := smallLayout.indexFile }

def smallPrepared : Tree :=
  smallProject.tree.put ["p", "mod"] .directory

def smallBinding : String :=
  bindingText "a.rs" (smallLayout.libraryPath "a") (smallModule.functions [])

def smallBound : Tree :=
  smallPrepared.put ["p", "mod", "a.ts"] (.file (Text.utf8 smallBinding) false)

def smallGenerated : Tree :=
  smallBound.put ["p", "index.ts"] (.file (Text.utf8 (indexText smallIndex)) false)

theorem smallProject_accepted :
    Accepted smallProject.session smallProject.tree (Location.path ["p"]) ["p"]
      { root := Location.path ["p"] } [smallSource] :=
  @Accepted.of_regular _ _ smallProject_regular ["p"] ["p", "rs"] _ _ rfl smallProject_load rfl rfl
    (by decide +kernel) (by decide)

open Run in
theorem smallSource_yields :
    Yields (processSource ⟨smallLayout, [], none⟩ onlyF {} smallSource) smallProject.session
      smallPrepared { modules := [smallModule], index := smallIndex } smallBound := by
  have prepared : smallPrepared.Regular := by decide
  have written := prepared.write_free (by decide : smallPrepared.Vacancy ["p", "mod", "a.ts"]) []
    smallBinding
  exact yields_processSource (prepared.readBytes_held rfl _) rfl
    (yields_writeModule rfl (prepared.makeDirectories_held (by decide) rfl _) written) rfl

open Run in
theorem smallProject_yields :
    Yields (generate smallTools true (Location.path ["p"])) smallProject.session
      smallProject.tree smallReport smallGenerated := by
  have bound : smallBound.Regular := by decide
  have free : smallBound.Vacancy ["p", "index.ts"] := by decide
  have modules := smallProject_regular.makeDirectories_free
    (by decide : smallProject.tree.Vacancy ["p", "mod"]) []
  have parsed : Yields (findParser smallTools { root := Location.path ["p"] }) smallProject.session
      smallProject.tree onlyF smallProject.tree := yields_pure onlyF _ _
  have processed : Yields (processAll ⟨smallLayout, [], none⟩ onlyF {} [smallSource])
      smallProject.session smallPrepared { modules := [smallModule], index := smallIndex }
      smallBound := smallSource_yields.bind (yields_pure _ _ _)
  have indexed : Yields (Emission.writeIndex ⟨smallLayout, [], none⟩ true smallIndex)
      smallProject.session smallBound smallLayout.indexFile smallGenerated :=
    yields_writeIndex (bound.pathExists_free free _)
      (yields_placeIndex rfl (bound.makeDirectories_held (by decide) rfl _)
        (bound.write_free free _ _))
  have produced : Yields (produce smallTools true { root := Location.path ["p"] } smallLayout
      [smallSource]) smallProject.session smallProject.tree smallReport smallGenerated :=
    yields_produce parsed modules rfl processed indexed
  exact ends_generate smallProject_accepted produced

end FfiBindings
