import FfiBindings.Proofs.Generation.Stopped
import FfiBindings.Proofs.Tree.Erased

set_option autoImplicit false

namespace FfiBindings

open ExceptT

namespace Compiler

def joinedOutput (printed complaint : Output) : String :=
  if printed.decoded = "" then complaint.decoded
  else if complaint.decoded = "" then printed.decoded
  else printed.decoded ++ "\n" ++ complaint.decoded

theorem output_exited (source : String) (code : Int) (printed complaint : Output) :
    (CompileError.exited source code printed complaint).output = joinedOutput printed complaint := by
  unfold CompileError.output joinedOutput
  by_cases silent : printed.decoded = "" <;> by_cases quiet : complaint.decoded = "" <;>
    simp [silent, quiet]

inductive Reported : Outcome → Failure → Prop
  | notFound {error : CompileError} (nothing : error.output = "") :
      Reported .notFound (.compilation error)
  | timedOut {printed : Output} {error : CompileError} (kept : error.output = printed.decoded) :
      Reported (.timedOut printed) (.compilation error)
  | exited {code : Int} {printed complaint : Output} {error : CompileError}
      (kept : error.output = joinedOutput printed complaint) :
      Reported (.exited code printed complaint) (.compilation error)
  | crashed (error : LaunchError) : Reported (.crashed error) (.launch error)

namespace Native

variable {compiler : Native} {layout : Layout} {source : SourceFile} {sources done : List SourceFile}
  {world before : World}

theorem call_reported {invocation : Invocation}
    (failing : (compiler.runner.run world.calls.length invocation world.tree).1 ≠ .succeeded) :
    ∃ failure, (compiler.call source invocation).outcome world = .error failure ∧
      Reported (compiler.runner.run world.calls.length invocation world.tree).1 failure := by
  unfold call
  simp only [outcome_bind, outcome_get, after_get, outcome_set]
  cases answer : (compiler.runner.run world.calls.length invocation world.tree).1 with
  | succeeded => exact absurd answer failing
  | notFound => exact ⟨_, rfl, .notFound rfl⟩
  | timedOut printed => exact ⟨_, rfl, .timedOut rfl⟩
  | exited code printed complaint => exact ⟨_, rfl, .exited (output_exited _ _ _ _)⟩
  | crashed error => exact ⟨_, rfl, .crashed error⟩

theorem call_succeeds {invocation : Invocation}
    (answer : (compiler.runner.run world.calls.length invocation world.tree).1 = .succeeded) :
    (compiler.call source invocation).outcome world = .ok () := by
  unfold call
  simp only [outcome_bind, outcome_get, after_get, outcome_set, answer]
  rfl

def ready (compiler : Native) (layout : Layout) (source : SourceFile) (world : World) : World :=
  ((Run.makeDirectories (compiler.artifact layout source).parent).after world).log
    (compileRecord source (compiler.artifact layout source))

def answer (compiler : Native) (layout : Layout) (source : SourceFile) (world : World) : Outcome :=
  (compiler.runner.run world.calls.length (compiler.callFor layout source)
    (compiler.ready layout source world).tree).1

def called (compiler : Native) (layout : Layout) (source : SourceFile) (world : World) : World :=
  (compiler.call source (compiler.callFor layout source)).after (compiler.ready layout source world)

/-- Nothing stands in the way of a source: its directory can be made, and what is found under the name
of a side product is no directory. -/
structure Unhindered (compiler : Native) (layout : Layout) (source : SourceFile) (world : World) :
    Prop where
  opened : (Run.makeDirectories (compiler.artifact layout source).parent).outcome world = .ok ()
  noDirectory : ∀ stray ∈ strays (compiler.artifact layout source),
    (compiler.called layout source world).tree.OnlyHolds world.session.cwd stray (· ≠ .directory)

@[simp] theorem ready_session : (compiler.ready layout source world).session = world.session := by
  simp [ready]

@[simp] theorem ready_calls : (compiler.ready layout source world).calls = world.calls := by
  simp [ready]

@[simp] theorem called_session : (compiler.called layout source world).session = world.session := by
  simp [called, call_after]

@[simp] theorem called_calls : (compiler.called layout source world).calls =
    world.calls ++ [compiler.callFor layout source] := by
  simp [called, call_after]

theorem called_bare {session : Session} {tree left : Tree}
    (ready : (compiler.ready layout source world).Bare session tree)
    (ran : (compiler.runner.run world.calls.length (compiler.callFor layout source) tree).2 = left) :
    (compiler.called layout source world).Bare session left := by
  rw [called, call_after, ready_calls, ready.tree, ran]
  exact ⟨ready.session, rfl, by simp [World.withTree, ready.handlers]⟩

def finish (compiler : Native) (layout : Layout) (source : SourceFile) : Run Path := do
  compiler.call source (compiler.callFor layout source)
  (strays (compiler.artifact layout source)).forM removeStray
  return compiler.artifact layout source

theorem compileOne_eq (compiler : Native) (layout : Layout) (source : SourceFile) :
    compiler.compileOne layout source = (do
      Run.makeDirectories (compiler.artifact layout source).parent
      Run.log (compileRecord source (compiler.artifact layout source))
      compiler.finish layout source) := rfl

section Opened

variable
  (opened : (Run.makeDirectories (compiler.artifact layout source).parent).outcome world = .ok ())

include opened

theorem compileOne_opened :
    (compiler.compileOne layout source).outcome world =
        (compiler.finish layout source).outcome (compiler.ready layout source world) ∧
      (compiler.compileOne layout source).after world =
        (compiler.finish layout source).after (compiler.ready layout source world) := by
  simp only [compileOne_eq, outcome_bind, after_bind, opened, Run.log_outcome, Run.log_after, ready,
    and_self]

theorem compileOne_of_failing (failing : compiler.answer layout source world ≠ .succeeded) :
    (∃ failure, (compiler.compileOne layout source).outcome world = .error failure ∧
        Reported (compiler.answer layout source world) failure) ∧
      (compiler.compileOne layout source).after world = compiler.called layout source world := by
  rw [(compileOne_opened opened).1, (compileOne_opened opened).2]
  rw [answer, ← @ready_calls compiler layout source world] at failing ⊢
  obtain ⟨failure, failed, reported⟩ := @call_reported compiler source _ _ failing
  simp only [finish, outcome_bind, after_bind, failed]
  exact ⟨⟨failure, rfl, reported⟩, rfl⟩

theorem compileOne_of_succeeding (succeeded : compiler.answer layout source world = .succeeded) :
    (compiler.compileOne layout source).outcome world =
        (((strays (compiler.artifact layout source)).forM removeStray).outcome
          (compiler.called layout source world)).map (fun _ => compiler.artifact layout source) ∧
      (compiler.compileOne layout source).after world =
        ((strays (compiler.artifact layout source)).forM removeStray).after
          (compiler.called layout source world) := by
  rw [(compileOne_opened opened).1, (compileOne_opened opened).2]
  rw [answer, ← @ready_calls compiler layout source world] at succeeded
  have passed := @call_succeeds compiler source _ _ succeeded
  simp only [finish, outcome_bind, after_bind, passed, called]
  cases ((strays (compiler.artifact layout source)).forM removeStray).outcome _ <;> exact ⟨rfl, rfl⟩

end Opened

theorem stemOfName_append {suffix : String} (plain : '.' ∉ suffix.toList) (stem : String) :
    stemOfName (stem ++ "." ++ suffix) = stem := by
  have letters : (stem ++ "." ++ suffix).toList.reverse =
      suffix.toList.reverse ++ '.' :: stem.toList.reverse := by simp
  have behind : ∀ c ∈ suffix.toList.reverse, (c != '.') = true := by
    intro c member
    rw [bne_iff_ne]
    rintro rfl
    exact plain (List.mem_reverse.mp member)
  rw [stemOfName, letters, List.dropWhile_append_of_pos behind]
  simp

theorem strays_eq {base path : Path} {directories : List String} {stem suffix : String}
    (below : Path.FileBelow base path directories (stem ++ "." ++ suffix))
    (plain : '.' ∉ suffix.toList) :
    strays path = straySuffixes.map fun stray =>
      { base with parts := base.parts ++ (directories ++ [stem ++ stray]) } := by
  have named : path.name = stem ++ "." ++ suffix := by
    simp [below.eq, Path.name]
  rw [strays, named, stemOfName_append plain, below.eq]
  simp only [Path.withName, ← List.append_assoc, List.dropLast_concat]

section Strays

variable {stray : Path} {paths : List Path}

theorem removeStray_after (stray : Path) (world : World) :
    ((removeStray stray).after world).session = world.session ∧
      ((removeStray stray).after world).calls = world.calls ∧
      (((removeStray stray).after world).tree = world.tree ∨ ∃ place entry,
        world.tree.locate world.session.cwd false stray = .ok place ∧
          world.tree.entry? place = some entry ∧ entry ≠ .directory ∧
          ((removeStray stray).after world).tree = world.tree.erase place) := by
  unfold removeStray
  rw [after_bind, Run.pathExists_after]
  cases (Run.pathExists stray).outcome world with
  | error failure => exact ⟨rfl, rfl, .inl rfl⟩
  | ok present =>
    cases present
    · exact ⟨rfl, rfl, .inl rfl⟩
    · simp only [if_true, Run.unlink_after]
      refine ⟨rfl, rfl, ?_⟩
      rcases Tree.unlink_located world.tree world.session.cwd stray with
        ⟨error, -, same⟩ | ⟨place, entry, located, held, noDirectory, -, erased⟩
      · exact .inl same
      · exact .inr ⟨place, entry, located, held, noDirectory, erased⟩

theorem removeStray_onlyHolds {path : Path} {property : Entry → Prop}
    (holds : world.tree.OnlyHolds world.session.cwd path property) (stray : Path) :
    ((removeStray stray).after world).tree.OnlyHolds ((removeStray stray).after world).session.cwd
      path property := by
  obtain ⟨session, -, tree⟩ := removeStray_after stray world
  rw [session]
  rcases tree with same | ⟨gone, entry, -, held, noDirectory, erased⟩
  · rw [same]
    exact holds
  · rw [erased]
    exact holds.erase (Tree.ne_nil_of_held held noDirectory)

-- What stays true when a side product is taken away stays true when all of them are.
theorem removeStrays_after (kept : Tree → Prop) (start : kept world.tree)
    (step : ∀ stray ∈ paths, ∀ tree place entry, kept tree →
      tree.locate world.session.cwd false stray = .ok place → tree.entry? place = some entry →
      entry ≠ .directory → kept (tree.erase place)) :
    ((paths.forM removeStray).after world).session = world.session ∧
      ((paths.forM removeStray).after world).calls = world.calls ∧
      kept ((paths.forM removeStray).after world).tree := by
  induction paths generalizing world with
  | nil => exact ⟨rfl, rfl, start⟩
  | cons stray rest ih =>
    rw [List.forall_mem_cons] at step
    obtain ⟨session, calls, tree⟩ := removeStray_after stray world
    have first : kept ((removeStray stray).after world).tree := by
      rcases tree with same | ⟨place, entry, located, held, noDirectory, erased⟩
      · rwa [same]
      · rw [erased]
        exact step.1 _ place entry start located held noDirectory
    rw [removeStrays_cons, after_bind]
    cases (removeStray stray).outcome world with
    | error failure => exact ⟨session, calls, first⟩
    | ok _ =>
      obtain ⟨laterSession, laterCalls, later⟩ := ih first (by rw [session]; exact step.2)
      exact ⟨laterSession.trans session, laterCalls.trans calls, later⟩

@[simp] theorem removeStrays_session (paths : List Path) (world : World) :
    ((paths.forM removeStray).after world).session = world.session :=
  (removeStrays_after (fun _ => True) trivial fun _ _ _ _ _ _ _ _ _ => trivial).1

@[simp] theorem removeStrays_calls (paths : List Path) (world : World) :
    ((paths.forM removeStray).after world).calls = world.calls :=
  (removeStrays_after (fun _ => True) trivial fun _ _ _ _ _ _ _ _ _ => trivial).2.1

theorem removeStray_refused {failure : Failure}
    (noDirectory : world.tree.OnlyHolds world.session.cwd stray (· ≠ .directory))
    (failed : (removeStray stray).outcome world = .error failure) :
    ∃ error, world.tree.pathExists world.session.cwd stray = .error error ∧
      failure = .file error := by
  unfold removeStray at failed
  rw [outcome_bind, Run.pathExists_outcome, Run.pathExists_after] at failed
  cases asked : world.tree.pathExists world.session.cwd stray with
  | error error =>
    rw [asked] at failed
    exact ⟨error, rfl, (Except.error.inj failed).symm⟩
  | ok present =>
    rw [asked] at failed
    cases present with
    | false => cases failed
    | true =>
      obtain ⟨entry, found⟩ := Tree.pathExists_eq_true.mp asked
      change (Run.unlink stray).outcome world = _ at failed
      rw [Run.unlink_outcome, Tree.unlink_of_found found noDirectory] at failed
      cases failed

theorem removeStrays_refused {failure : Failure}
    (noDirectory : ∀ stray ∈ paths, world.tree.OnlyHolds world.session.cwd stray (· ≠ .directory))
    (failed : (paths.forM removeStray).outcome world = .error failure) :
    ∃ stray ∈ paths, ∃ error, world.tree.pathExists world.session.cwd stray = .error error ∧
      failure = .file error := by
  induction paths generalizing world with
  | nil => cases failed
  | cons stray rest ih =>
    rw [List.forall_mem_cons] at noDirectory
    rw [removeStrays_cons] at failed
    rcases outcome_bind_eq_error failed with ⟨first, -⟩ | ⟨_, -, later, -⟩
    · obtain ⟨error, asked, same⟩ := removeStray_refused noDirectory.1 first
      exact ⟨stray, List.mem_cons_self, error, asked, same⟩
    · obtain ⟨other, member, error, asked, same⟩ := ih
        (fun other member => removeStray_onlyHolds (noDirectory.2 other member) stray) later
      refine ⟨other, List.mem_cons_of_mem stray member, error, ?_, same⟩
      obtain ⟨session, -, tree⟩ := removeStray_after stray world
      rw [session] at asked
      rcases tree with unchanged | ⟨gone, entry, -, -, -, erased⟩
      · rwa [unchanged] at asked
      · rw [erased] at asked
        exact Tree.pathExists_eq_error_of_fits (Tree.erase_fits _ _) asked

end Strays

/-- A source that nothing stands in the way of, that the runner compiles, and whose side products can be
asked for. -/
structure Passes (compiler : Native) (layout : Layout) (source : SourceFile) (world : World) : Prop
    extends Unhindered compiler layout source world where
  succeeded : compiler.answer layout source world = .succeeded
  asked : ∀ stray ∈ strays (compiler.artifact layout source), ∃ present,
    (compiler.called layout source world).tree.pathExists world.session.cwd stray = .ok present

/-- All sources of a list pass, one after the other. -/
inductive Passed (compiler : Native) (layout : Layout) : World → List SourceFile → World → Prop
  | nil (world : World) : Passed compiler layout world [] world
  | cons {world after : World} {source : SourceFile} {rest : List SourceFile}
      (first : compiler.Passes layout source world)
      (later : Passed compiler layout ((compiler.compileOne layout source).after world) rest after) :
      Passed compiler layout world (source :: rest) after

theorem compileOne_refused {failure : Failure} (unhindered : compiler.Unhindered layout source world)
    (succeeded : compiler.answer layout source world = .succeeded)
    (failed : (compiler.compileOne layout source).outcome world = .error failure) :
    ∃ stray ∈ strays (compiler.artifact layout source),
      (compiler.called layout source world).tree.pathExists world.session.cwd stray =
          .error (.system .nameTooLong stray.toString) ∧
        failure = .file (.system .nameTooLong stray.toString) := by
  rw [(compileOne_of_succeeding unhindered.opened succeeded).1] at failed
  cases removed : ((strays (compiler.artifact layout source)).forM removeStray).outcome
      (compiler.called layout source world) with
  | ok _ =>
    rw [removed] at failed
    cases failed
  | error earlier =>
    rw [removed] at failed
    cases failed
    have noDirectory := unhindered.noDirectory
    rw [← @called_session compiler layout source world] at noDirectory ⊢
    obtain ⟨stray, member, error, asked, same⟩ := removeStrays_refused noDirectory removed
    obtain ⟨-, -, rfl⟩ := Tree.pathExists_eq_error.mp asked
    exact ⟨stray, member, asked, same⟩

theorem Passes.compileOne (passes : compiler.Passes layout source world) :
    (compiler.compileOne layout source).outcome world = .ok (compiler.artifact layout source) := by
  cases ended : (compiler.compileOne layout source).outcome world with
  | ok output =>
    rw [(compileOne_of_succeeding passes.opened passes.succeeded).1] at ended
    cases removed : ((strays (compiler.artifact layout source)).forM removeStray).outcome
        (compiler.called layout source world) with
    | ok _ =>
      rw [removed] at ended
      exact ended.symm
    | error failure =>
      rw [removed] at ended
      cases ended
  | error failure =>
    obtain ⟨stray, member, refused, -⟩ :=
      compileOne_refused passes.toUnhindered passes.succeeded ended
    obtain ⟨present, asked⟩ := passes.asked stray member
    rw [refused] at asked
    cases asked

theorem Unhindered.calls (unhindered : compiler.Unhindered layout source world) :
    ((compiler.compileOne layout source).after world).calls =
      world.calls ++ [compiler.callFor layout source] := by
  by_cases succeeded : compiler.answer layout source world = .succeeded
  · rw [(compileOne_of_succeeding unhindered.opened succeeded).2, removeStrays_calls, called_calls]
  · rw [(compileOne_of_failing unhindered.opened succeeded).2, called_calls]

theorem compile_cons (compiler : Native) (layout : Layout) (source : SourceFile)
    (rest : List SourceFile) :
    compiler.compile layout (source :: rest) = (do
      let output ← compiler.compileOne layout source
      return output :: (← compiler.compile layout rest)) := rfl

theorem compile_after_cons {output : Path}
    (first : (compiler.compileOne layout source).outcome world = .ok output)
    (rest : List SourceFile) :
    (compiler.compile layout (source :: rest)).after world =
      (compiler.compile layout rest).after ((compiler.compileOne layout source).after world) := by
  rw [compile_cons, after_bind, first]
  exact after_bind_pure _ _ _

theorem Passed.compile_append (passed : compiler.Passed layout world done before)
    (rest : List SourceFile) :
    (compiler.compile layout (done ++ rest)).outcome world =
        ((compiler.compile layout rest).outcome before).map (done.map (compiler.artifact layout) ++ ·) ∧
      (compiler.compile layout (done ++ rest)).after world =
        (compiler.compile layout rest).after before ∧
      before.calls = world.calls ++ done.map (compiler.callFor layout) := by
  induction passed with
  | nil world =>
    refine ⟨?_, rfl, by simp⟩
    cases ended : (compiler.compile layout rest).outcome world <;> simp [ended, Except.map]
  | @cons world after source others first later ih =>
    obtain ⟨outcome, left, calls⟩ := ih
    refine ⟨?_, ?_, ?_⟩
    · rw [List.cons_append, compile_cons, outcome_bind, first.compileOne]
      simp only [outcome_bind, outcome]
      cases (compiler.compile layout rest).outcome after <;> rfl
    · rw [List.cons_append, compile_after_cons first.compileOne, left]
    · rw [calls, first.toUnhindered.calls, List.append_assoc]
      rfl

theorem compile_failed {failure : Failure} (rest : List SourceFile)
    (failed : (compiler.compileOne layout source).outcome world = .error failure) :
    (compiler.compile layout (source :: rest)).outcome world = .error failure ∧
      (compiler.compile layout (source :: rest)).after world =
        (compiler.compileOne layout source).after world := by
  rw [compile_cons, outcome_bind, after_bind, failed]
  exact ⟨rfl, rfl⟩

/-- Compiling a list of sources ends with a failure at one of them, after a call for each up to it. -/
structure StopsAt (compiler : Native) (layout : Layout) (world : World) (done : List SourceFile)
    (source : SourceFile) (rest : List SourceFile) (failure : Failure) : Prop where
  outcome : (compiler.compile layout (done ++ source :: rest)).outcome world = .error failure
  calls : ((compiler.compile layout (done ++ source :: rest)).after world).calls =
    world.calls ++ (done ++ [source]).map (compiler.callFor layout)

theorem Passed.stopsAt {failure : Failure} (passed : compiler.Passed layout world done before)
    (unhindered : compiler.Unhindered layout source before)
    (failed : (compiler.compileOne layout source).outcome before = .error failure)
    (rest : List SourceFile) : StopsAt compiler layout world done source rest failure := by
  obtain ⟨outcome, after, calls⟩ := passed.compile_append (source :: rest)
  obtain ⟨stopped, left⟩ := compile_failed rest failed
  refine ⟨?_, ?_⟩
  · rw [outcome, stopped]
    rfl
  · rw [after, left, unhindered.calls, calls, List.map_append, List.append_assoc]
    rfl

end Native

end Compiler

open Compiler Native

/-- Sources that pass are compiled by one call each, in their order. At the next source compiling ends
if the runner fails, which is reported, and otherwise only over a side product whose name is too long. -/
theorem compile_stops_at_failure {compiler : Native} {layout : Layout} {world before : World}
    {done : List SourceFile} (passed : compiler.Passed layout world done before) :
    ((compiler.compile layout done).outcome world =
        .ok (done.map fun source => layout.artifactPath source.moduleName compiler.suffix) ∧
      ((compiler.compile layout done).after world).calls =
        world.calls ++ done.map fun source =>
          { arguments :=
              [compiler.command, "--crate-type", "cdylib", "--crate-name", crateName source.stem, "-o",
                (layout.artifactPath source.moduleName compiler.suffix).toString] ++
                compiler.extraArguments ++ [source.path.toString]
            directory := layout.root
            timeout := compiler.timeout }) ∧
    ∀ source rest, compiler.Unhindered layout source before →
      (compiler.answer layout source before ≠ .succeeded →
        ∃ failure, Reported (compiler.answer layout source before) failure ∧
          StopsAt compiler layout world done source rest failure) ∧
      (compiler.answer layout source before = .succeeded →
        ∀ failure, (compiler.compileOne layout source).outcome before = .error failure →
          StopsAt compiler layout world done source rest failure ∧
            ∃ stray ∈ strays (compiler.artifact layout source),
              (compiler.called layout source before).tree.pathExists before.session.cwd stray =
                  .error (.system .nameTooLong stray.toString) ∧
                failure = .file (.system .nameTooLong stray.toString)) := by
  refine ⟨?_, fun source rest unhindered => ⟨fun failing => ?_, fun succeeded failure failed => ?_⟩⟩
  · obtain ⟨outcome, after, calls⟩ := passed.compile_append []
    rw [List.append_nil] at outcome after
    refine ⟨?_, by rw [after]; exact calls⟩
    rw [outcome]
    change Except.ok (done.map (compiler.artifact layout) ++ []) = _
    rw [List.append_nil]
    rfl
  · obtain ⟨⟨failure, failed, reported⟩, -⟩ := compileOne_of_failing unhindered.opened failing
    exact ⟨failure, reported, passed.stopsAt unhindered failed rest⟩
  · exact ⟨passed.stopsAt unhindered failed rest, compileOne_refused unhindered succeeded failed⟩

def emptyBin : World where
  tree := { entries := [(["bin"], .directory)] }
  session := { cwd := [], homes := [] }
  time := ""

def binLayout : Layout :=
  Layout.ofNames (Location.path []) {}

def sourceNamed (name : String) : SourceFile where
  path := Location.path ["rs", name ++ sourceSuffix]
  relativePath := name ++ sourceSuffix
  moduleName := name

def scripted (script : Nat → Outcome) : Native where
  suffix := "so"
  runner := { run := fun count _ tree => (script count, tree) }

theorem emptyBin_unlinked : emptyBin.tree.Unlinked := by
  intro location target linked
  by_cases top : location = []
  · simp [top] at linked
  · simpa [emptyBin] using Tree.mem_entries_of_found top linked

theorem emptyBin_inside : emptyBin.tree.Inside ["bin"] :=
  Tree.inside_iff.mpr ⟨Tree.inside_nil _, rfl⟩

section Scripted

variable {script : Nat → Outcome} {name : String} {world : World}

theorem artifact_flat (clear : '/' ∉ name.toList) :
    Path.FileBelow binLayout.binDir ((scripted script).artifact binLayout (sourceNamed name)) []
      (name ++ "." ++ "so") := by
  have extension : IsExtension ("." ++ "so") := ⟨by decide, 's', by decide, by decide⟩
  have proper : IsName (name ++ "." ++ "so") := by
    rw [String.append_assoc]
    exact extension.isName clear
  refine ⟨by simpa using proper, ?_⟩
  change binLayout.binDir.join (Path.ofString (name ++ "." ++ "so")) = _
  have read := @Path.ofString_intercalate [name ++ "." ++ "so"] (by simpa using proper.1)
  rw [String.intercalate_singleton] at read
  rw [read]
  rfl

theorem scripted_strays (clear : '/' ∉ name.toList) :
    strays ((scripted script).artifact binLayout (sourceNamed name)) =
      straySuffixes.map fun suffix => Location.path ["bin", name ++ suffix] := by
  rw [strays_eq (artifact_flat clear) (by decide)]
  rfl

section Bin

variable {tree : Tree} {part : String} (directory : tree.entry? ["bin"] = some .directory)
  (notUp : part ≠ "..") (short : part.utf8ByteSize ≤ nameLimit)

include directory notUp short

theorem locate_in_bin (writable : tree.Writable ["bin", part]) (follow : Bool) :
    tree.locate [] follow (Location.path ["bin", part]) = .ok ["bin", part] :=
  Tree.Leads.walk_eq (.into (by decide) (by decide) directory (.last notUp short writable))

theorem free_in_bin (free : tree.entry? ["bin", part] = none) :
    tree.pathExists [] (Location.path ["bin", part]) = .ok false :=
  Tree.pathExists_of_free (locate_in_bin directory notUp short (Tree.writable_of_free free) true) free

end Bin

variable (bare : world.Bare emptyBin.session emptyBin.tree) (clear : '/' ∉ name.toList)

include bare clear

theorem scripted_opened :
    (Run.makeDirectories ((scripted script).artifact binLayout (sourceNamed name)).parent).outcome world =
        .ok () ∧
      ((scripted script).called binLayout (sourceNamed name) world).Bare emptyBin.session
        emptyBin.tree := by
  have parent : ((scripted script).artifact binLayout (sourceNamed name)).parent =
      Location.path ["bin"] := by
    rw [(artifact_flat clear).eq]
    rfl
  have present := @Tree.makeDirectories_of_present emptyBin.tree [] ["bin"] (Location.path ["bin"])
    (by decide) (by decide)
    (fun _ => Tree.Leads.walk_eq (.into (by decide) (by decide) rfl (.done _ _))) rfl
  obtain ⟨opened, made⟩ := Run.yields_makeDirectories present world bare
  rw [parent]
  refine ⟨opened, ?_⟩
  have ready : ((scripted script).ready binLayout (sourceNamed name) world).Bare emptyBin.session
      emptyBin.tree := by
    rw [ready, parent]
    exact (Run.yields_log _ _ made).2
  exact called_bare ready rfl

theorem scripted_unhindered :
    (scripted script).Unhindered binLayout (sourceNamed name) world := by
  obtain ⟨opened, called⟩ := @scripted_opened script name world bare clear
  refine ⟨opened, fun stray member place entry located held => ?_⟩
  obtain ⟨other, notUp, rfl⟩ := mem_strays member
  have beside : ((scripted script).artifact binLayout (sourceNamed name)).withName other =
      Location.path ["bin", other] := by
    rw [(artifact_flat clear).eq]
    rfl
  have names : ∀ part ∈ ["bin", other], part ≠ ".." := by
    simpa using notUp
  rw [called.tree, beside] at located
  have there : place = ["bin", other] :=
    (Tree.locate_eq emptyBin_unlinked located).trans (Location.steps_of_names names)
  have free : emptyBin.tree.entry? ["bin", other] = none := rfl
  rw [called.tree, there, free] at held
  cases held

theorem scripted_passes (succeeded : script world.calls.length = .succeeded)
    (short : ∀ suffix ∈ straySuffixes, (name ++ suffix).utf8ByteSize ≤ nameLimit) :
    (scripted script).Passes binLayout (sourceNamed name) world ∧
      (((scripted script).compileOne binLayout (sourceNamed name)).after world).Bare
        emptyBin.session emptyBin.tree := by
  obtain ⟨opened, called⟩ := @scripted_opened script name world bare clear
  have absent : ∀ stray ∈ strays ((scripted script).artifact binLayout (sourceNamed name)),
      emptyBin.tree.pathExists [] stray = .ok false := by
    intro stray member
    rw [scripted_strays clear] at member
    obtain ⟨suffix, listed, rfl⟩ := List.mem_map.mp member
    exact free_in_bin rfl ((isExtension_stray listed).isName clear).2 (short suffix listed) rfl
  refine ⟨⟨scripted_unhindered bare clear, succeeded, fun stray member => ⟨false, ?_⟩⟩, ?_⟩
  · rw [called.tree, bare.session]
    exact absent stray member
  · rw [(compileOne_of_succeeding opened succeeded).2]
    exact (yields_removeStrays absent _ called).2

theorem scripted_tooLong (plain : containsNul name = false)
    (short : (name ++ ".pdb").utf8ByteSize ≤ nameLimit)
    (long : nameLimit < (name ++ ".dll.lib").utf8ByteSize) :
    ((scripted fun _ => .succeeded).compile binLayout [sourceNamed name]).outcome world =
      .error (.file (.system .nameTooLong (Location.path ["bin", name ++ ".dll.lib"]).toString)) := by
  obtain ⟨opened, called⟩ := @scripted_opened (fun _ => .succeeded) name world bare clear
  have notUp := ((@isExtension_stray ".pdb" (by decide)).isName clear).2
  have free := @free_in_bin emptyBin.tree _ rfl notUp short rfl
  have plainPath : Tree.containsNulPart (Location.path ["bin", name ++ ".dll.lib"]) = false := by
    have whole : containsNul (name ++ ".dll.lib") = false := by
      rw [containsNul, String.toList_append, List.contains_append, Bool.or_eq_false_iff]
      exact ⟨plain, by decide⟩
    simpa [Tree.containsNulPart, whole] using by decide
  have tooLong : emptyBin.tree.pathExists emptyBin.session.cwd
      (Location.path ["bin", name ++ ".dll.lib"]) =
      .error (.system .nameTooLong (Location.path ["bin", name ++ ".dll.lib"]).toString) :=
    @Tree.leadsTo_of_long emptyBin.tree emptyBin.session.cwd
      (Location.path ["bin", name ++ ".dll.lib"]) ["bin"] (name ++ ".dll.lib") rfl plainPath rfl
      (by decide) emptyBin_inside long fun _ => true
  refine (compile_failed [] ?_).1
  rw [(compileOne_of_succeeding opened rfl).1, scripted_strays clear]
  have first : Run.Yields (removeStray (Location.path ["bin", name ++ ".pdb"])) emptyBin.session
      emptyBin.tree () emptyBin.tree :=
    Run.Yields.bind (Run.yields_pathExists free) (Run.yields_pure () _ _)
  have loop : Run.Ends ((straySuffixes.map fun suffix => Location.path ["bin", name ++ suffix]).forM
      removeStray) emptyBin.session emptyBin.tree (.error (.file (.system .nameTooLong
        (Location.path ["bin", name ++ ".dll.lib"]).toString))) emptyBin.tree :=
    first.ends (((Run.ends_pathExists_error tooLong).bind_error _).bind_error _)
  rw [(loop _ called).1]
  rfl

end Scripted

def failsSecond : Nat → Outcome
  | 0 => .succeeded
  | _ => .exited 1 (.text " one \n") (.bytes (Text.utf8 "two\n"))

theorem failsSecond_stops :
    ∃ error,
      ((scripted failsSecond).compile binLayout [sourceNamed "a", sourceNamed "b", sourceNamed "c"]).outcome
          emptyBin = .error (.compilation error) ∧
        error.output = "one\ntwo" ∧
        (((scripted failsSecond).compile binLayout
          [sourceNamed "a", sourceNamed "b", sourceNamed "c"]).after emptyBin).calls =
          [sourceNamed "a", sourceNamed "b"].map ((scripted failsSecond).callFor binLayout) := by
  have bare : emptyBin.Bare emptyBin.session emptyBin.tree := ⟨rfl, rfl, rfl⟩
  obtain ⟨first, left⟩ := @scripted_passes failsSecond "a" emptyBin bare (by decide) rfl (by decide)
  have unhindered := @scripted_unhindered failsSecond "b" _ left (by decide)
  have made := first.toUnhindered.calls
  have failing : (scripted failsSecond).answer binLayout (sourceNamed "b")
      (((scripted failsSecond).compileOne binLayout (sourceNamed "a")).after emptyBin) =
        failsSecond 1 := by
    rw [answer, made]
    rfl
  obtain ⟨failure, reported, stops⟩ :=
    ((compile_stops_at_failure (.cons first (.nil _))).2 (sourceNamed "b") [sourceNamed "c"]
      unhindered).1 (by simp [failing, failsSecond])
  rw [failing] at reported
  change Reported (.exited 1 (.text " one \n") (.bytes (Text.utf8 "two\n"))) failure at reported
  cases reported with
  | exited kept => exact ⟨_, stops.outcome, kept.trans (by decide +kernel), stops.calls⟩

-- The name of a library can fit while the name of a side product does not.
theorem longName_not_returned :
    (longName 248 ++ ".so").utf8ByteSize ≤ nameLimit ∧
      (scripted fun _ => .succeeded).Unhindered binLayout (sourceNamed (longName 248)) emptyBin ∧
      ((scripted fun _ => .succeeded).compile binLayout [sourceNamed (longName 248)]).outcome emptyBin =
        .error (.file (.system .nameTooLong
          (Location.path ["bin", longName 248 ++ ".dll.lib"]).toString)) := by
  have bare : emptyBin.Bare emptyBin.session emptyBin.tree := ⟨rfl, rfl, rfl⟩
  have clear : '/' ∉ (longName 248).toList := notMem_longName (by decide)
  have plain : containsNul (longName 248) = false := by
    rw [containsNul, List.contains_eq_mem, decide_eq_false_iff_not]
    exact notMem_longName (by decide)
  refine ⟨?_, scripted_unhindered bare clear, scripted_tooLong bare clear plain ?_ ?_⟩ <;>
    rw [utf8ByteSize_longName] <;> decide

end FfiBindings
