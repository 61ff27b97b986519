import FfiBindings.Proofs.Generation.Partition
import FfiBindings.Proofs.Run.Failures

set_option autoImplicit false

namespace FfiBindings

open ExceptT Generation

namespace Compiler.Native

variable {compiler : Native} {layout : Layout} {begun ended moreBegun moreEnded : List SourceFile}
  {source : SourceFile} {sources : List SourceFile} {world before middle after : World}
  {location : Location}

def artifact (compiler : Native) (layout : Layout) (source : SourceFile) : Path :=
  layout.artifactPath source.moduleName compiler.suffix

def callFor (compiler : Native) (layout : Layout) (source : SourceFile) : Invocation :=
  compiler.invocation layout source (compiler.artifact layout source)

-- The step of a call is whatever the runner makes of the tree: nothing is assumed about it.
inductive Step (compiler : Native) (layout : Layout) (begun ended : List SourceFile) :
    World → World → Prop
  | record (world : World) (record : Log.Record) :
      Step compiler layout begun ended world (world.log record)
  | directories {world : World} {source : SourceFile} {tree : Tree} (member : source ∈ begun)
      (openings : Tree.Openings world.session.cwd (compiler.artifact layout source).parent
        world.tree tree) :
      Step compiler layout begun ended world (world.withTree tree)
  | call {source : SourceFile} (member : source ∈ begun) (world : World) :
      Step compiler layout begun ended world
        ((compiler.call source (compiler.callFor layout source)).after world)
  | stray {world : World} {source : SourceFile} {stray : Path} {place : Location} {entry : Entry}
      (member : source ∈ ended) (beside : stray ∈ strays (compiler.artifact layout source))
      (located : world.tree.locate world.session.cwd false stray = .ok place)
      (held : world.tree.entry? place = some entry) (noDirectory : entry ≠ .directory) :
      Step compiler layout begun ended world (world.withTree (world.tree.erase place))

abbrev Steps (compiler : Native) (layout : Layout) (begun ended : List SourceFile) :
    World → World → Prop :=
  Relation.ReflTransGen (Step compiler layout begun ended)

theorem Steps.mono (steps : Steps compiler layout begun ended before after)
    (alsoBegun : begun ⊆ moreBegun) (alsoEnded : ended ⊆ moreEnded) :
    Steps compiler layout moreBegun moreEnded before after := by
  refine Relation.ReflTransGen.mono (fun _ _ step => ?_) _ _ steps
  cases step with
  | record => exact .record _ _
  | directories member openings => exact .directories (alsoBegun member) openings
  | call member => exact .call (alsoBegun member) _
  | stray member beside located held noDirectory =>
    exact .stray (alsoEnded member) beside located held noDirectory

/-- A stretch of compiling with the calls that were made in it. -/
structure Compiled (compiler : Native) (layout : Layout) (begun ended : List SourceFile)
    (calls : List Invocation) (before after : World) : Prop where
  steps : Steps compiler layout begun ended before after
  calls : after.calls = before.calls ++ calls

variable {calls moreCalls : List Invocation}

theorem Compiled.trans (first : Compiled compiler layout begun ended calls before middle)
    (second : Compiled compiler layout begun ended moreCalls middle after) :
    Compiled compiler layout begun ended (calls ++ moreCalls) before after :=
  ⟨first.steps.trans second.steps, by rw [second.calls, first.calls, List.append_assoc]⟩

theorem Compiled.mono (compiled : Compiled compiler layout begun ended calls before after)
    (alsoBegun : begun ⊆ moreBegun) (alsoEnded : ended ⊆ moreEnded) :
    Compiled compiler layout moreBegun moreEnded calls before after :=
  ⟨compiled.steps.mono alsoBegun alsoEnded, compiled.calls⟩

theorem compiled_self (world : World) : Compiled compiler layout begun ended [] world world :=
  ⟨.refl, by simp⟩

theorem compiled_record (world : World) (record : Log.Record) :
    Compiled compiler layout begun ended [] world (world.log record) :=
  ⟨.single (.record world record), by simp⟩

theorem compiled_directories (member : source ∈ begun) (world : World) :
    Compiled compiler layout begun ended [] world
      ((Run.makeDirectories (compiler.artifact layout source).parent).after world) := by
  rw [Run.makeDirectories_after]
  exact ⟨.single (.directories member (Tree.makeDirectories_openings _ _ _)), by simp⟩

theorem compiled_call (member : source ∈ begun) (world : World) :
    Compiled compiler layout begun ended [compiler.callFor layout source] world
      ((compiler.call source (compiler.callFor layout source)).after world) :=
  ⟨.single (.call member world), by rw [call_after]⟩

theorem compiled_removeStray {stray : Path} (member : source ∈ ended)
    (beside : stray ∈ strays (compiler.artifact layout source))
    (succeeds : (removeStray stray).outcome world = .ok ()) :
    Compiled compiler layout begun ended [] world ((removeStray stray).after world) := by
  unfold removeStray at succeeds ⊢
  obtain ⟨present, -, succeeds, after⟩ := outcome_bind_eq_ok succeeds
  rw [Run.pathExists_after] at succeeds after
  rw [after]
  cases present
  · exact compiled_self world
  · change (Run.unlink stray).outcome world = .ok () at succeeds
    change Compiled compiler layout begun ended [] world ((Run.unlink stray).after world)
    rw [Run.unlink_outcome, Except.mapError_eq_ok] at succeeds
    rw [Run.unlink_after]
    rcases Tree.unlink_located world.tree world.session.cwd stray with
      ⟨error, failed, -⟩ | ⟨place, entry, located, held, noDirectory, -, erased⟩
    · rw [failed] at succeeds
      cases succeeds
    · rw [erased]
      exact ⟨.single (.stray member beside located held noDirectory), by simp⟩

theorem compiled_removeStrays {paths : List Path} (member : source ∈ ended)
    (beside : paths ⊆ strays (compiler.artifact layout source))
    (succeeds : (paths.forM removeStray).outcome world = .ok ()) :
    Compiled compiler layout begun ended [] world ((paths.forM removeStray).after world) := by
  induction paths generalizing world with
  | nil => exact compiled_self world
  | cons stray rest ih =>
    rw [List.cons_subset] at beside
    obtain ⟨_, first, later, after⟩ := outcome_bind_eq_ok succeeds
    rw [removeStrays_cons, after]
    exact (compiled_removeStray member beside.1 first).trans (ih beside.2 later)

theorem compiled_called (source : SourceFile) (world : World) :
    Compiled compiler layout [source] ended [compiler.callFor layout source] world
      ((compiler.call source (compiler.callFor layout source)).after
        (((Run.makeDirectories (compiler.artifact layout source).parent).after world).log
          (compileRecord source (compiler.artifact layout source)))) :=
  ((compiled_directories (by simp) world).trans (compiled_record _ _)).trans
    (compiled_call (by simp) _)

theorem compileOne_eq_ok {output : Path}
    (succeeds : (compiler.compileOne layout source).outcome world = .ok output) :
    Compiled compiler layout [source] [source] [compiler.callFor layout source] world
      ((compiler.compileOne layout source).after world) := by
  unfold compileOne at succeeds ⊢
  obtain ⟨_, -, succeeds, afterOpening⟩ := outcome_bind_eq_ok succeeds
  obtain ⟨_, -, succeeds, afterRecord⟩ := outcome_bind_eq_ok succeeds
  obtain ⟨_, -, succeeds, afterCall⟩ := outcome_bind_eq_ok succeeds
  obtain ⟨_, removed, -, afterStrays⟩ := outcome_bind_eq_ok succeeds
  rw [afterOpening, afterRecord, afterCall, afterStrays]
  exact (compiled_called source world).trans
    (compiled_removeStrays (by simp) (List.Subset.refl _) removed)

theorem removeStray_ofFiles (stray : Path) : FailsOnly Run.OfFiles (removeStray stray) := by
  refine (Run.pathExists_ofFiles stray).bind fun present => ?_
  cases present
  · exact failsOnly_pure _ _
  · exact Run.unlink_ofFiles stray

theorem removeStrays_ofFiles (paths : List Path) :
    FailsOnly Run.OfFiles (paths.forM removeStray) := by
  induction paths with
  | nil => exact failsOnly_pure _ _
  | cons stray rest ih => exact (removeStray_ofFiles stray).bind fun _ => ih

-- A source that fails to compile has not come to its side products.
theorem compileOne_stopped {error : CompileError}
    (failed : (compiler.compileOne layout source).outcome world = .error (.compilation error)) :
    Compiled compiler layout [source] [] [compiler.callFor layout source] world
      ((compiler.compileOne layout source).after world) := by
  unfold compileOne at failed ⊢
  rcases outcome_bind_eq_error failed with ⟨failed, -⟩ | ⟨_, -, failed, afterOpening⟩
  · obtain ⟨_, other⟩ := Run.makeDirectories_ofFiles _ _ _ failed
    cases other
  rcases outcome_bind_eq_error failed with ⟨failed, -⟩ | ⟨_, -, failed, afterRecord⟩
  · cases failed
  rcases outcome_bind_eq_error failed with ⟨-, afterCall⟩ | ⟨_, -, failed, -⟩
  · rw [afterOpening, afterRecord, afterCall]
    exact compiled_called source world
  rcases outcome_bind_eq_error failed with ⟨failed, -⟩ | ⟨_, -, failed, -⟩
  · obtain ⟨_, other⟩ := removeStrays_ofFiles _ _ _ failed
    cases other
  · cases failed

theorem compile_eq_ok {outputs : List Path}
    (succeeds : (compiler.compile layout sources).outcome world = .ok outputs) :
    Compiled compiler layout sources sources (sources.map (compiler.callFor layout)) world
      ((compiler.compile layout sources).after world) := by
  induction sources generalizing world outputs with
  | nil => exact compiled_self world
  | cons source rest ih =>
    unfold compile at succeeds ⊢
    obtain ⟨output, first, succeeds, afterFirst⟩ := outcome_bind_eq_ok succeeds
    obtain ⟨others, later, -, afterRest⟩ := outcome_bind_eq_ok succeeds
    rw [afterFirst, afterRest]
    exact ((compileOne_eq_ok first).mono (by simp) (by simp)).trans
      ((ih later).mono (by simp) (by simp))

theorem compile_stopped {error : CompileError}
    (failed : (compiler.compile layout sources).outcome world = .error (.compilation error)) :
    ∃ done source rest, sources = done ++ source :: rest ∧
      Compiled compiler layout (done ++ [source]) done
        ((done ++ [source]).map (compiler.callFor layout)) world
        ((compiler.compile layout sources).after world) := by
  induction sources generalizing world with
  | nil => cases failed
  | cons source rest ih =>
    unfold compile at failed ⊢
    rcases outcome_bind_eq_error failed with ⟨failed, after⟩ | ⟨output, first, failed, after⟩
    · refine ⟨[], source, rest, rfl, ?_⟩
      rw [after]
      exact compileOne_stopped failed
    · rcases outcome_bind_eq_error failed with ⟨failed, afterRest⟩ | ⟨_, -, failed, -⟩
      · obtain ⟨done, stopped, untried, rfl, compiled⟩ := ih failed
        refine ⟨source :: done, stopped, untried, rfl, ?_⟩
        rw [after, afterRest]
        exact ((compileOne_eq_ok first).mono (by simp) (by simp)).trans
          (compiled.mono (by simp) (by simp))
      · cases failed

def OfCompiling : Failure → Prop
  | .file _ | .compilation _ | .launch _ => True
  | _ => False

theorem call_failsOnly (compiler : Native) (source : SourceFile) (invocation : Invocation) :
    FailsOnly OfCompiling (compiler.call source invocation) := by
  intro world failure failed
  simp only [call, outcome_bind, outcome_get, after_get, outcome_set] at failed
  split at failed
  · cases failed
  all_goals
    cases failed
    trivial

theorem ofCompiling_ofFiles (failure : Failure) (ofFiles : Run.OfFiles failure) :
    OfCompiling failure := by
  obtain ⟨error, rfl⟩ := ofFiles
  trivial

theorem compile_failsOnly (compiler : Native) (layout : Layout) (sources : List SourceFile) :
    FailsOnly OfCompiling (compiler.compile layout sources) := by
  induction sources with
  | nil => exact failsOnly_pure _ _
  | cons source rest ih =>
    have one : FailsOnly OfCompiling (compiler.compileOne layout source) :=
      ((Run.makeDirectories_ofFiles _).mono ofCompiling_ofFiles).bind fun _ =>
        (Run.log_failsOnly _).bind fun _ => (call_failsOnly compiler source _).bind fun _ =>
          ((removeStrays_ofFiles _).mono ofCompiling_ofFiles).bind fun _ => failsOnly_pure _ _
    exact one.bind fun _ => ih.bind fun _ => failsOnly_pure _ _

theorem Steps.logsTo (steps : Steps compiler layout begun ended before after)
    (logged : after.LogsTo location) : before.LogsTo location := by
  induction steps with
  | refl => exact logged
  | tail _ step ih =>
    apply ih
    cases step with
    | record => exact World.logsTo_log.mp logged
    | directories => exact World.logsTo_withTree logged
    | stray => exact World.logsTo_withTree logged
    | call =>
      rw [call_after] at logged
      obtain ⟨handlers, present, file⟩ := logged
      exact World.logsTo_withTree ⟨handlers, present, file⟩

end Compiler.Native

namespace Tree

variable {tree after : Tree} {location : Location} {content : Text.Bytes} {executable : Bool}

theorem Openings.file {cwd : Location} {path : Path} (openings : Openings cwd path tree after)
    (held : after.entry? location = some (.file content executable)) :
    tree.entry? location = some (.file content executable) := by
  induction openings with
  | refl => exact held
  | tail _ opening ih =>
    apply ih
    cases opening with
    | @make parts place above located free =>
      have inside : place ≠ [] := by
        rintro rfl
        simp at free
      by_cases here : location = place
      · subst here
        rw [entry?_put_self _ _ inside] at held
        cases held
      · rwa [entry?_put_of_ne _ _ here] at held

end Tree

namespace Compiler.Native

variable {compiler : Native} {layout : Layout} {begun ended : List SourceFile}
  {before after : World} {location : Location}

-- Where a file comes from that is there afterwards.
theorem Steps.file {content : Text.Bytes} {executable : Bool}
    (steps : Steps compiler layout begun ended before after)
    (held : after.tree.entry? location = some (.file content executable)) :
    before.tree.entry? location = some (.file content executable) ∨ before.LogsTo location ∨
      ∃ source ∈ begun, ∃ earlier, Steps compiler layout begun ended before earlier ∧
        earlier.tree.entry? location ≠ some (.file content executable) ∧
        Tree.entry? ((compiler.call source (compiler.callFor layout source)).after earlier).tree
          location = some (.file content executable) := by
  induction steps with
  | refl => exact .inl held
  | @tail middle _ steps step ih =>
    cases step with
    | record world record =>
      rcases World.log_tree_cases middle record with
        same | ⟨place, old, more, mode, logged, -, put⟩
      · rw [same] at held
        exact ih held
      · by_cases here : location = place
        · subst here
          exact .inr (.inl (Steps.logsTo steps logged))
        · rw [put, Tree.entry?_put_of_ne _ _ here] at held
          exact ih held
    | directories member openings => exact ih (Tree.Openings.file openings held)
    | @call source member =>
      by_cases already : middle.tree.entry? location = some (.file content executable)
      · exact ih already
      · exact .inr (.inr ⟨source, member, middle, steps, already, held⟩)
    | stray => exact ih (Tree.entry?_of_erase held)

/-- A run that got no further than compiling: what it did, which calls it made, and where every file
comes from that is there afterwards. -/
structure OnlyCompiled (compiler : Native) (layout : Layout) (begun ended : List SourceFile)
    (before after : World) : Prop where
  steps : Steps compiler layout begun ended before after
  calls : after.calls = before.calls ++ begun.map (compiler.callFor layout)
  files : ∀ location content executable,
    after.tree.entry? location = some (.file content executable) →
    before.tree.entry? location = some (.file content executable) ∨ before.LogsTo location ∨
      ∃ source ∈ begun, ∃ earlier, Steps compiler layout begun ended before earlier ∧
        earlier.tree.entry? location ≠ some (.file content executable) ∧
        Tree.entry? ((compiler.call source (compiler.callFor layout source)).after earlier).tree
          location = some (.file content executable)

theorem Compiled.onlyCompiled {record : Log.Record}
    (compiled : Compiled compiler layout begun ended (begun.map (compiler.callFor layout))
      (before.log record) after) : OnlyCompiled compiler layout begun ended before after := by
  have whole := (compiled_record before record).trans compiled
  exact ⟨whole.steps, whole.calls, fun _ _ _ => whole.steps.file⟩

end Compiler.Native

namespace Generation

def OfWriting : Failure → Prop
  | .file _ | .indexed _ | .template _ | .templateEncoding _ => True
  | _ => False

theorem ofWriting_ofFiles (failure : Failure) (ofFiles : Run.OfFiles failure) :
    OfWriting failure := by
  obtain ⟨error, rfl⟩ := ofFiles
  trivial

theorem findTemplate?_failsOnly (name : String) (places : List Template.Place) :
    FailsOnly OfWriting (Template.findTemplate? name places) := by
  induction places with
  | nil => exact failsOnly_pure _ _
  | cons place others ih =>
    cases place with
    | standard => exact failsOnly_pure _ _
    | directory directory =>
      refine FailsOnly.bind (fun _ _ failed => nomatch failed) fun world => ?_
      split
      · refine (Run.ask_failsOnly fun _ _ _ => trivial).bind fun bytes => ?_
        split
        · exact failsOnly_pure _ _
        · intro world failure failed
          cases failed
          trivial
      · exact ih

theorem rendered_failsOnly (context : Template.Context) (source : List Char) :
    FailsOnly OfWriting (Template.rendered context source) := by
  unfold Template.rendered
  split
  · exact failsOnly_pure _ _
  · intro world failure failed
    cases failed
    trivial

theorem bindingText_failsOnly (emission : Emission) (bindings : BindingModule) :
    FailsOnly OfWriting (emission.bindingText bindings) := by
  refine (findTemplate?_failsOnly _ _).bind fun own => ?_
  cases own with
  | none => exact failsOnly_pure _ _
  | some source => exact rendered_failsOnly _ _

theorem indexText_failsOnly (emission : Emission) (typeFilter : Bool) (index : ExportIndex) :
    FailsOnly OfWriting (emission.indexText typeFilter index) := by
  refine (Run.logAll_failsOnly _).bind fun _ => (findTemplate?_failsOnly _ _).bind fun own => ?_
  cases own with
  | none => exact failsOnly_pure _ _
  | some source => exact rendered_failsOnly _ _

theorem writeModule_failsOnly (emission : Emission) (bindings : BindingModule) :
    FailsOnly OfWriting (emission.writeModule bindings) :=
  ((Run.makeDirectories_ofFiles _).mono ofWriting_ofFiles).bind fun _ =>
    (bindingText_failsOnly emission bindings).bind fun _ =>
      ((Run.write_ofFiles _ _).mono ofWriting_ofFiles).bind fun _ =>
        (Run.log_failsOnly _).bind fun _ => failsOnly_pure _ _

theorem placeIndex_failsOnly (emission : Emission) (index : ExportIndex) (text : String) :
    FailsOnly OfWriting (emission.placeIndex index text) :=
  ((Run.makeDirectories_ofFiles _).mono ofWriting_ofFiles).bind fun _ =>
    ((Run.write_ofFiles _ _).mono ofWriting_ofFiles).bind fun _ =>
      (Run.log_failsOnly _).bind fun _ => failsOnly_pure _ _

theorem writeIndex_failsOnly (emission : Emission) (typeFilter : Bool) (index : ExportIndex) :
    FailsOnly OfWriting (emission.writeIndex typeFilter index) := by
  rw [Emission.writeIndex_eq]
  refine (indexText_failsOnly emission typeFilter index).bind fun text => ?_
  refine ((Run.pathExists_ofFiles _).mono ofWriting_ofFiles).bind fun present => ?_
  cases present
  · exact placeIndex_failsOnly emission index text
  · exact ((Run.unlink_ofFiles _).mono ofWriting_ofFiles).bind fun _ =>
      placeIndex_failsOnly emission index text

theorem addToIndex_failsOnly (layout : Layout) (bindings : BindingModule) (index : ExportIndex) :
    FailsOnly OfWriting (addToIndex layout bindings index) := by
  unfold addToIndex
  split
  · exact failsOnly_pure _ _
  · intro world failure failed
    cases failed
    trivial

theorem processSource_failsOnly (emission : Emission) (parser : Extraction.SignatureParser)
    (progress : Progress) (source : SourceFile) :
    FailsOnly OfWriting (processSource emission parser progress source) := by
  refine Run.cwd_failsOnly.bind fun here => ?_
  refine (Run.ask_failsOnly fun _ _ _ => trivial).bind fun bytes => ?_
  split
  · exact (Run.log_failsOnly _).bind fun _ => failsOnly_pure _ _
  · exact (Run.logAll_failsOnly _).bind fun _ => (writeModule_failsOnly _ _).bind fun _ =>
      (addToIndex_failsOnly _ _ _).bind fun _ => failsOnly_pure _ _

theorem processAll_failsOnly (emission : Emission) (parser : Extraction.SignatureParser)
    (progress : Progress) (sources : List SourceFile) :
    FailsOnly OfWriting (processAll emission parser progress sources) := by
  induction sources generalizing progress with
  | nil => exact failsOnly_pure _ _
  | cons source rest ih =>
    exact (processSource_failsOnly emission parser progress source).bind fun progress => ih progress

def OfFinding : Failure → Prop
  | .file _ | .settings _ | .noProject _ | .noSources _ _ => True
  | _ => False

structure IsProject (directory : Path) (world : World) (settings : Settings) (layout : Layout)
    (sources : List SourceFile) : Prop where
  found : ∃ root, world.session.resolve world.tree directory = .ok root ∧
    Settings.load world.session world.tree root.path = .ok settings ∧
    (layoutOf root.path settings.layout).outcome world = .ok layout
  sources : sources = discover world.tree layout.sourceDir settings.excludePaths

end Generation

variable {tools : Tools} {skipCompile : Bool} {directory : Path} {world : World} {failure : Failure}

theorem asking_eq_error {α β : Type} {question : Run α} {next : α → Run β}
    (same : question.after world = world) (only : FailsOnly OfFinding question)
    (failed : (question >>= next).outcome world = .error failure) :
    (OfFinding failure ∧ (question >>= next).after world = world) ∨
      ∃ answer, question.outcome world = .ok answer ∧ (next answer).outcome world = .error failure ∧
        (question >>= next).after world = (next answer).after world := by
  rcases outcome_bind_eq_error failed with ⟨failed, after⟩ | ⟨answer, given, failed, after⟩
  · exact .inl ⟨only _ _ failed, after.trans same⟩
  · rw [same] at failed after
    exact .inr ⟨answer, given, failed, after⟩

theorem isDirectory_ofFinding (path : Path) : FailsOnly OfFinding (Run.isDirectory path) :=
  Run.cwd_failsOnly.bind fun _ => Run.ask_failsOnly fun _ _ _ => trivial

theorem resolve_ofFinding (path : Path) : FailsOnly OfFinding (Run.resolve path) :=
  FailsOnly.bind (fun _ _ failed => nomatch failed) fun _ => Run.ask_failsOnly fun _ _ _ => trivial

theorem loadSettings_ofFinding (path : Path) : FailsOnly OfFinding (Run.loadSettings path) := by
  intro world failure failed
  rw [Run.loadSettings_outcome] at failed
  cases loaded : Settings.load world.session world.tree path with
  | ok settings =>
    rw [loaded] at failed
    cases failed
  | error error =>
    rw [loaded] at failed
    cases failed
    trivial

theorem findParser_eq_error {settings : Settings}
    (failed : (findParser tools settings).outcome world = .error failure) :
    ∃ error, failure = .parser error := by
  unfold findParser at failed
  split at failed
  · cases failed
  · split at failed
    · cases failed
    · cases failed
      exact ⟨_, rfl⟩

-- Where a generation can fail, and the world it leaves there if nothing was written yet.
theorem generate_eq_error
    (failed : (generate tools skipCompile directory).outcome world = .error failure) :
    (OfFinding failure ∧ (generate tools skipCompile directory).after world = world) ∨
    OfWriting failure ∨
    ∃ settings layout sources, IsProject directory world settings layout sources ∧
      (generate tools skipCompile directory).after world =
        (artifactsOf tools settings skipCompile layout sources).after
          (world.log (startRecord sources.length layout.sourceDir)) ∧
      ((artifactsOf tools settings skipCompile layout sources).outcome
          (world.log (startRecord sources.length layout.sourceDir)) = .error failure ∨
        (∃ error, failure = .parser error) ∧
        ∃ artifacts, (artifactsOf tools settings skipCompile layout sources).outcome
          (world.log (startRecord sources.length layout.sourceDir)) = .ok artifacts) := by
  generalize finished : (generate tools skipCompile directory).after world = final
  unfold generate at failed finished
  rcases asking_eq_error (Run.resolve_after _ _) (resolve_ofFinding _) failed with
    ⟨early, same⟩ | ⟨root, resolved, failed, after⟩
  · exact .inl ⟨early, finished.symm.trans same⟩
  replace finished := after.symm.trans finished
  rcases asking_eq_error (Run.isDirectory_after _ _) (isDirectory_ofFinding _) failed with
    ⟨early, same⟩ | ⟨present, -, failed, after⟩
  · exact .inl ⟨early, finished.symm.trans same⟩
  replace finished := after.symm.trans finished
  cases present
  · cases failed
    exact .inl ⟨trivial, finished.symm⟩
  rcases asking_eq_error (Run.loadSettings_after _ _) (loadSettings_ofFinding _) failed with
    ⟨early, same⟩ | ⟨settings, loaded, failed, after⟩
  · exact .inl ⟨early, finished.symm.trans same⟩
  replace finished := after.symm.trans finished
  rcases asking_eq_error (layoutOf_after _ _ _)
      ((resolve_ofFinding _).bind fun _ => failsOnly_pure _ _) failed with
    ⟨early, same⟩ | ⟨layout, laidOut, failed, after⟩
  · exact .inl ⟨early, finished.symm.trans same⟩
  replace finished := after.symm.trans finished
  rcases asking_eq_error (Run.isDirectory_after _ _) (isDirectory_ofFinding _) failed with
    ⟨early, same⟩ | ⟨sourced, -, failed, after⟩
  · exact .inl ⟨early, finished.symm.trans same⟩
  replace finished := after.symm.trans finished
  cases sourced
  · cases failed
    exact .inl ⟨trivial, finished.symm⟩
  rw [Run.resolve_outcome, Except.mapError_eq_ok] at resolved
  rw [Run.loadSettings_outcome, Except.mapError_eq_ok] at loaded
  -- From here on the project is found, and the first record goes to the log.
  rcases outcome_bind_eq_error failed with ⟨failed, -⟩ | ⟨state, got, failed, after⟩
  · cases failed
  cases got
  replace finished := after.symm.trans finished
  rcases outcome_bind_eq_error failed with ⟨failed, -⟩ | ⟨_, -, failed, after⟩
  · cases failed
  replace finished := after.symm.trans finished
  have project : IsProject directory world settings layout _ := ⟨⟨root, resolved, loaded, laidOut⟩, rfl⟩
  rcases outcome_bind_eq_error failed with ⟨failed, after⟩ | ⟨artifacts, compiled, failed, after⟩
  · exact .inr (.inr ⟨settings, layout, _, project, finished.symm.trans after, .inl failed⟩)
  replace finished := after.symm.trans finished
  rcases outcome_bind_eq_error failed with ⟨failed, after⟩ | ⟨parser, -, failed, -⟩
  · refine .inr (.inr ⟨settings, layout, _, project, ?_, .inr ⟨findParser_eq_error failed, _, compiled⟩⟩)
    exact finished.symm.trans (after.trans (findParser_after _ _ _))
  -- What is left writes, and fails with what writing fails with.
  refine .inr (.inl ?_)
  have writing : FailsOnly OfWriting (Run.makeDirectories layout.modulesDir) :=
    (Run.makeDirectories_ofFiles _).mono ofWriting_ofFiles
  refine (writing.bind fun _ => ?_) _ _ failed
  refine (processAll_failsOnly _ _ _ _).bind fun progress => ?_
  exact (writeIndex_failsOnly _ _ _).bind fun _ =>
    (Run.log_failsOnly _).bind fun _ => failsOnly_pure _ _

theorem compileStep_native {settings : Settings}
    (native : ∀ step, tools.compiler = some step → ∃ compiler : Compiler.Native,
      step = compiler.compile) :
    ∃ compiler : Compiler.Native, compileStep tools settings = compiler.compile := by
  unfold compileStep
  cases given : tools.compiler with
  | none => exact ⟨_, rfl⟩
  | some step => exact native step given

def compiledSources (settings : Settings) (skipCompile : Bool) (sources : List SourceFile) :
    List SourceFile :=
  if skipCompile || !settings.compiler.enabled then [] else sources

theorem artifactsOf_native {settings : Settings} {compiler : Compiler.Native}
    (step : compileStep tools settings = compiler.compile) (layout : Layout)
    (sources : List SourceFile) :
    artifactsOf tools settings skipCompile layout sources =
      compiler.compile layout (compiledSources settings skipCompile sources) := by
  unfold artifactsOf compiledSources
  split
  · rfl
  · rw [step]

-- Refused settings and missing directories: nothing else is of these two natures.
theorem refused_of_nature (refused : failure.nature = .layout ∨ failure.nature = .configuration) :
    ¬ OfWriting failure ∧ ¬ Compiler.Native.OfCompiling failure ∧
      ∀ error, failure ≠ .parser error := by
  have ofFile : ∀ error : FileError, error.nature ≠ .layout ∧ error.nature ≠ .configuration := by
    rintro (_ | _ | _ | _ | _) <;> simp [FileError.nature]
  cases failure with
  | settings => exact ⟨id, id, nofun⟩
  | noProject => exact ⟨id, id, nofun⟩
  | noSources => exact ⟨id, id, nofun⟩
  | file error => exact absurd refused (not_or.mpr (ofFile error))
  | launch error =>
    refine absurd refused (not_or.mpr ?_)
    rcases error with error | _ | _ | (_ | _ | _ | _)
    · exact ofFile error
    all_goals simp [Failure.nature, Compiler.LaunchError.nature]
  | parser error => cases error <;> simp [Failure.nature, Extraction.LookupError.nature] at refused
  | template error => cases error <;> simp [Failure.nature, Template.TemplateError.nature] at refused
  | compilation | indexed | templateEncoding => simp [Failure.nature] at refused

/-- A generation that fails before it writes has at most compiled: it changes nothing at all if the
project is refused, and otherwise no file is new or different but by the compiler's own doing. -/
theorem generate_stopped
    (native : ∀ step, tools.compiler = some step → ∃ compiler : Compiler.Native,
      step = compiler.compile)
    (failed : (generate tools skipCompile directory).outcome world = .error failure) :
    (failure.nature = .layout ∨ failure.nature = .configuration →
      (generate tools skipCompile directory).after world = world) ∧
    ((∃ error, failure = .compilation error) →
      ∃ settings layout compiler done source rest,
        IsProject directory world settings layout (done ++ source :: rest) ∧
        compileStep tools settings = Compiler.Native.compile compiler ∧
        compiler.OnlyCompiled layout (done ++ [source]) done world
          ((generate tools skipCompile directory).after world)) ∧
    ((∃ error, failure = .parser error) →
      ∃ settings layout compiler sources,
        IsProject directory world settings layout sources ∧
        compileStep tools settings = Compiler.Native.compile compiler ∧
        compiler.OnlyCompiled layout (compiledSources settings skipCompile sources)
          (compiledSources settings skipCompile sources) world
          ((generate tools skipCompile directory).after world)) := by
  rcases generate_eq_error failed with
    ⟨finding, same⟩ | writing | ⟨settings, layout, sources, project, after, stopped⟩
  · refine ⟨fun _ => same, ?_, ?_⟩
    · rintro ⟨error, rfl⟩
      exact finding.elim
    · rintro ⟨error, rfl⟩
      exact finding.elim
  · refine ⟨fun refused => absurd writing (refused_of_nature refused).1, ?_, ?_⟩
    · rintro ⟨error, rfl⟩
      exact writing.elim
    · rintro ⟨error, rfl⟩
      exact writing.elim
  · obtain ⟨compiler, step⟩ := @compileStep_native tools settings native
    rw [after]
    rw [artifactsOf_native step] at stopped ⊢
    rcases stopped with failed | ⟨⟨error, rfl⟩, artifacts, compiled⟩
    · have compiling := Compiler.Native.compile_failsOnly _ _ _ _ _ failed
      refine ⟨fun refused => absurd compiling (refused_of_nature refused).2.1, ?_, ?_⟩
      · rintro ⟨error, rfl⟩
        obtain ⟨done, source, rest, parted, compiled⟩ := Compiler.Native.compile_stopped failed
        have all : compiledSources settings skipCompile sources = sources := by
          unfold compiledSources at parted ⊢
          split at parted
          · simp at parted
          · next enabled => rw [if_neg enabled]
        rw [parted] at all
        rw [← all] at project
        exact ⟨settings, layout, compiler, done, source, rest, project, step, compiled.onlyCompiled⟩
      · rintro ⟨error, rfl⟩
        exact compiling.elim
    · refine ⟨fun refused => absurd rfl ((refused_of_nature refused).2.2 error), nofun, fun _ => ?_⟩
      have finished := Compiler.Native.compile_eq_ok compiled
      exact ⟨settings, layout, compiler, sources, project, step, finished.onlyCompiled⟩

namespace Compiler.Native

open Run

variable {compiler : Native} {source : SourceFile} {invocation : Invocation} {session : Session}
  {before after : Tree} {stray : Path} {paths : List Path}

theorem call_keeps_bare {outcome : Outcome}
    (answered : ∀ count, compiler.runner.run count invocation before = (outcome, after))
    {world : World} (bare : world.Bare session before) :
    ((compiler.call source invocation).after world).Bare session after := by
  have changed : (compiler.runner.run world.calls.length invocation world.tree).2 = after := by
    rw [bare.tree, answered]
  rw [call_after, changed]
  exact ⟨bare.session, rfl, by simp [World.withTree, bare.handlers]⟩

theorem yields_call
    (answered : ∀ count, compiler.runner.run count invocation before = (.succeeded, after)) :
    Yields (compiler.call source invocation) session before () after := by
  intro world bare
  refine ⟨?_, call_keeps_bare answered bare⟩
  simp only [call, outcome_bind, outcome_get, after_get, outcome_set, bare.tree, answered]
  rfl

theorem ends_call_exited {code : Int} {output errorOutput : Output}
    (answered : ∀ count, compiler.runner.run count invocation before =
      (.exited code output errorOutput, after)) :
    Ends (compiler.call source invocation) session before
      (.error (.compilation (.exited source.relativePath code output errorOutput))) after := by
  intro world bare
  refine ⟨?_, call_keeps_bare answered bare⟩
  simp only [call, outcome_bind, outcome_get, after_get, outcome_set, bare.tree, answered]
  rfl

theorem yields_removeStray (present : before.pathExists session.cwd stray = .ok true)
    (removed : (Tree.unlink session.cwd stray).outcome before = .ok () ∧
      (Tree.unlink session.cwd stray).after before = after) :
    Yields (removeStray stray) session before () after :=
  (yields_pathExists present).bind (yields_unlink removed)

theorem yields_removeStrays {tree : Tree}
    (absent : ∀ stray ∈ paths, tree.pathExists session.cwd stray = .ok false) :
    Yields (paths.forM removeStray) session tree () tree := by
  induction paths with
  | nil => exact yields_pure () session tree
  | cons stray rest ih =>
    rw [List.forall_mem_cons] at absent
    have first : Yields (removeStray stray) session tree () tree :=
      (yields_pathExists absent.1).bind (yields_pure () session tree)
    exact first.bind (ih absent.2)

theorem yields_compileOne {layout : Layout} {output : Path} {middle written : Tree}
    (spelled : layout.artifactPath source.moduleName compiler.suffix = output)
    (directory : (Tree.makeDirectories session.cwd output.parent).outcome before = .ok () ∧
      (Tree.makeDirectories session.cwd output.parent).after before = middle)
    (answered : ∀ count, compiler.runner.run count (compiler.invocation layout source output) middle =
      (.succeeded, written))
    (cleared : Yields ((strays output).forM removeStray) session written () after) :
    Yields (compiler.compileOne layout source) session before output after := by
  subst spelled
  exact (yields_makeDirectories directory).bind <| (yields_log _).bind <|
    (yields_call answered).bind <| cleared.bind (yields_pure _ _ _)

theorem yields_compile_cons {layout : Layout} {output : Path} {outputs : List Path}
    {rest : List SourceFile} {middle : Tree}
    (first : Yields (compiler.compileOne layout source) session before output middle)
    (others : Yields (compiler.compile layout rest) session middle outputs after) :
    Yields (compiler.compile layout (source :: rest)) session before (output :: outputs) after :=
  first.bind (others.bind (yields_pure _ _ _))

end Compiler.Native

-- A compiler that leaves a side product beside each library, and gives up at a source named `b`.
def brittleRunner : Compiler.Runner where
  run _ invocation tree :=
    match invocation.output? with
    | none => (.succeeded, tree)
    | some output =>
      if output.name = "b.so" then
        (.exited 101 .none (.text "error: expected item"), tree)
      else
        (.succeeded, (invocation.linked tree).put (output.parent.location ++
          [Compiler.Native.stemOfName output.name ++ ".pdb"]) (.file [] false))

def brittleTools : Tools := { runner := brittleRunner }

def brittleCompiler : Compiler.Native := { suffix := "so", runner := brittleRunner }

def mixedBin : Tree := mixedProject.tree.put ["p", "bin"] .directory

def mixedLinked : Tree := mixedBin.put ["p", "bin", "a.so"] (.file [] true)

def mixedLittered : Tree := mixedLinked.put ["p", "bin", "a.pdb"] (.file [] false)

def mixedCompiled : Tree := mixedLittered.erase ["p", "bin", "a.pdb"]

open Run in
theorem mixedFirst_compiled :
    Yields (brittleCompiler.compileOne mixedLayout (mixedSource [] "a")) mixedProject.session
      mixedProject.tree (mixedLayout.artifactPath "a" "so") mixedCompiled := by
  have littered : mixedLittered.Regular := by decide
  have compiled : mixedCompiled.Regular := by decide
  have directory := mixedProject_regular.makeDirectories_free
    (by decide : mixedProject.tree.Vacancy ["p", "bin"]) []
  have answer : brittleRunner.run 0 (brittleCompiler.invocation mixedLayout (mixedSource [] "a")
      (mixedLayout.artifactPath "a" "so")) mixedBin = (.succeeded, mixedLittered) := by
    decide +kernel
  have removed := littered.unlink_held (rfl : mixedLittered.entry? ["p", "bin", "a.pdb"] = some _) []
  have others : ∀ stray ∈ [".dll.lib", ".dll.exp", ".dll.a"].map
      (fun suffix => Location.path ["p", "bin", "a" ++ suffix]),
      mixedCompiled.pathExists [] stray = .ok false := by
    refine List.forall_mem_map.mpr fun suffix listed => compiled.pathExists_free ?_ _
    exact (by decide +kernel : ∀ suffix ∈ [".dll.lib", ".dll.exp", ".dll.a"],
      mixedCompiled.Vacancy ["p", "bin", "a" ++ suffix]) suffix listed
  have strays : Compiler.Native.strays (mixedLayout.artifactPath "a" "so") =
      [".pdb", ".dll.lib", ".dll.exp", ".dll.a"].map
        fun suffix => Location.path ["p", "bin", "a" ++ suffix] := by decide +kernel
  have cleared : Yields ((Compiler.Native.strays (mixedLayout.artifactPath "a" "so")).forM
      Compiler.Native.removeStray) mixedProject.session mixedLittered () mixedCompiled := by
    rw [strays]
    exact (Compiler.Native.yields_removeStray (littered.pathExists_held rfl _) removed).bind
      (Compiler.Native.yields_removeStrays others)
  exact Compiler.Native.yields_compileOne (by decide +kernel) directory (fun _ => answer) cleared

open Run in
theorem mixedSecond_stops :
    Ends (brittleCompiler.compileOne mixedLayout (mixedSource [] "b")) mixedProject.session
      mixedCompiled (.error (.compilation (.exited "b.rs" 101 .none (.text "error: expected item"))))
      mixedCompiled := by
  have compiled : mixedCompiled.Regular := by decide
  have answer : brittleRunner.run 0 (brittleCompiler.invocation mixedLayout (mixedSource [] "b")
      (mixedLayout.artifactPath "b" "so")) mixedCompiled =
        (.exited 101 .none (.text "error: expected item"), mixedCompiled) := by
    decide +kernel
  have name : (mixedSource [] "b").moduleName = "b" := by decide +kernel
  have path : (mixedSource [] "b").relativePath = "b.rs" := by decide +kernel
  have suffix : brittleCompiler.suffix = "so" := rfl
  have failed : Ends (brittleCompiler.call (mixedSource [] "b") (brittleCompiler.invocation mixedLayout
      (mixedSource [] "b") (mixedLayout.artifactPath "b" "so"))) mixedProject.session mixedCompiled
      (.error (.compilation (.exited "b.rs" 101 .none (.text "error: expected item"))))
      mixedCompiled := by
    rw [← path]
    exact Compiler.Native.ends_call_exited fun _ => answer
  rw [Compiler.Native.compileOne, name, suffix]
  exact (yields_makeDirectories (compiled.makeDirectories_held (by decide) rfl _)).ends <|
    (yields_log _).ends (failed.bind_error _)

open Run in
theorem mixedProject_stops :
    Ends (generate brittleTools false (Location.path ["p"])) mixedProject.session
      mixedProject.tree
      (.error (.compilation (.exited "b.rs" 101 .none (.text "error: expected item"))))
      mixedCompiled := by
  have compiled : Ends (brittleCompiler.compile mixedLayout mixedSources) mixedProject.session
      mixedProject.tree
      (.error (.compilation (.exited "b.rs" 101 .none (.text "error: expected item"))))
      mixedCompiled :=
    mixedFirst_compiled.ends ((mixedSecond_stops.bind_error _).bind_error _)
  have suffix : librarySuffix brittleTools.platform = "so" := by decide +kernel
  have step : artifactsOf brittleTools mixedSettings false mixedLayout mixedSources =
      brittleCompiler.compile mixedLayout mixedSources := by
    change (Compiler.Native.mk _ _ _ (librarySuffix brittleTools.platform) _).compile _ _ = _
    rw [suffix]
    rfl
  refine ends_generate mixedProject_accepted (Ends.bind_error ?_ _)
  exact step ▸ compiled

theorem mixedProject_stopped :
    (generate brittleTools false (Location.path ["p"])).outcome mixedProject =
        .error (.compilation (.exited "b.rs" 101 .none (.text "error: expected item"))) ∧
      ((generate brittleTools false (Location.path ["p"])).after mixedProject).tree =
        mixedCompiled ∧
      ∃ settings layout compiler done source rest,
        IsProject (Location.path ["p"]) mixedProject settings layout (done ++ source :: rest) ∧
        compileStep brittleTools settings = Compiler.Native.compile compiler ∧
        compiler.OnlyCompiled layout (done ++ [source]) done mixedProject
          ((generate brittleTools false (Location.path ["p"])).after mixedProject) := by
  obtain ⟨failed, left⟩ := mixedProject_stops mixedProject ⟨rfl, rfl, rfl⟩
  have native : ∀ step, brittleTools.compiler = some step → ∃ compiler : Compiler.Native,
      step = compiler.compile := fun _ given => nomatch given
  exact ⟨failed, left.tree, (generate_stopped native failed).2.1 ⟨_, rfl⟩⟩

end FfiBindings
