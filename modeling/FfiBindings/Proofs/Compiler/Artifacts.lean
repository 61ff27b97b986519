import FfiBindings.Proofs.Compiler.Calls

set_option autoImplicit false

namespace FfiBindings

open ExceptT

def Path.EndsIn (path : Path) (name : String) : Prop :=
  name ≠ ".." ∧ ∃ above, path.parts = above ++ [name]

theorem Path.FileBelow.endsIn {base path : Path} {directories : List String} {last : String}
    (below : FileBelow base path directories last) : path.EndsIn last := by
  refine ⟨(below.names last (by simp)).2, base.parts ++ directories, ?_⟩
  rw [below.eq, List.append_assoc]

def Path.Apart (path other : Path) : Prop :=
  ∃ name different, path.EndsIn name ∧ other.EndsIn different ∧ name ≠ different

theorem Path.Apart.places {path other : Path} (apart : path.Apart other) {tree : Tree}
    {cwd place location : Location} (located : tree.locate cwd false path = .ok place)
    (also : tree.locate cwd false other = .ok location) : location ≠ place := by
  obtain ⟨name, different, ⟨notUp, above, parts⟩, ⟨otherNotUp, otherAbove, otherParts⟩, unequal⟩ := apart
  have leads := Tree.leads_of_walk located
  have otherLeads := Tree.leads_of_walk also
  rw [parts] at leads
  rw [otherParts] at otherLeads
  obtain ⟨directory, rfl⟩ := leads.ends notUp
  obtain ⟨otherDirectory, rfl⟩ := otherLeads.ends otherNotUp
  intro same
  exact unequal (List.cons.inj (List.append_inj' same rfl).2).1.symm

theorem World.log_fits (world : World) (record : Log.Record) :
    Tree.Fits world.tree (world.log record).tree := by
  rcases World.log_tree_cases world record with same | ⟨place, old, more, mode, -, held, put⟩
  · rw [same]
    exact refl world.tree
  · rw [put]
    exact Tree.put_file_fits (Tree.writable_of_file held) _ _

namespace Compiler

/-- A runner that takes nothing away, and whose successful calls leave a file where they are told. -/
structure Runner.Builds (runner : Runner) : Prop where
  keeps : ∀ count invocation tree, Tree.Fits tree (runner.run count invocation tree).2
  makes : ∀ count invocation tree output, (runner.run count invocation tree).1 = .succeeded →
    invocation.output? = some output →
    ∃ content executable,
      Tree.status (runner.run count invocation tree).2 [] output = .ok (.file content executable)

namespace Native

variable {compiler : Native} {layout : Layout} {source : SourceFile} {world : World} {path : Path}
  {place : Location} {paths : List Path}

/-- Neither the library of a source nor a side product is a link once its call is made. -/
def Unaliased (compiler : Native) (layout : Layout) (source : SourceFile) (world : World) : Prop :=
  ∀ path ∈ compiler.artifact layout source :: strays (compiler.artifact layout source),
    (compiler.called layout source world).tree.NoLink world.session.cwd path

theorem called_fits (builds : compiler.runner.Builds) (layout : Layout) (source : SourceFile)
    (world : World) : Tree.Fits world.tree (compiler.called layout source world).tree := by
  have opened : Tree.Fits world.tree
      ((Run.makeDirectories (compiler.artifact layout source).parent).after world).tree := by
    rw [Run.makeDirectories_after]
    exact (Tree.makeDirectories_openings _ _ _).fits
  have ready : Tree.Fits world.tree (compiler.ready layout source world).tree :=
    IsTrans.trans _ _ _ opened (World.log_fits _ _)
  rw [called, call_after]
  exact IsTrans.trans _ _ _ ready (builds.keeps _ _ _)

theorem called_stands (builds : compiler.runner.Builds)
    (spelled : (compiler.artifact layout source).Spelled)
    (rooted : (compiler.artifact layout source).anchor = .root)
    (succeeded : compiler.answer layout source world = .succeeded)
    (unaliased : compiler.Unaliased layout source world) :
    ∃ place, (compiler.called layout source world).tree.Stands world.session.cwd
      (compiler.artifact layout source) place := by
  have told : (compiler.callFor layout source).output? = some (compiler.artifact layout source) :=
    compiler.invocation_output? layout source spelled rooted
  obtain ⟨content, executable, made⟩ := builds.makes _ _ _ _ succeeded told
  have found : (compiler.called layout source world).tree.status world.session.cwd
      (compiler.artifact layout source) = .ok (.file content executable) := by
    rw [Tree.status_of_rooted (by simp [Path.isAbsolute, rooted]), called, call_after, ready_calls]
    exact made
  exact Tree.stands_of_status found (unaliased _ List.mem_cons_self)

theorem removeStrays_stands (stands : world.tree.Stands world.session.cwd path place)
    (apart : ∀ stray ∈ paths, path.Apart stray)
    (noLink : ∀ stray ∈ paths, world.tree.NoLink world.session.cwd stray) :
    ((paths.forM removeStray).after world).tree.Stands world.session.cwd path place := by
  refine (removeStrays_after (fun tree => tree.Stands world.session.cwd path place ∧
    ∀ stray ∈ paths, tree.NoLink world.session.cwd stray) ⟨stands, noLink⟩ ?_).2.2.1
  intro stray member tree gone entry kept located held noDirectory
  obtain ⟨stands, noLink⟩ := kept
  have named := Tree.ne_nil_of_held held noDirectory
  refine ⟨?_, fun other listed => (noLink other listed).erase named⟩
  -- What goes is a file in another place, so no way to the library is lost.
  cases entry with
  | file content executable =>
    exact stands.erase held ((apart stray member).places stands.located located)
  | directory => exact absurd rfl noDirectory
  | link target => exact absurd rfl (noLink stray member gone _ located held target)

theorem removeStray_absent {stray : Path} (removed : (removeStray stray).outcome world = .ok ()) :
    ((removeStray stray).after world).tree.Absent world.session.cwd stray := by
  unfold removeStray at removed ⊢
  obtain ⟨present, asked, ended, left⟩ := outcome_bind_eq_ok removed
  rw [left]
  rw [Run.pathExists_after] at ended ⊢
  cases present with
  | false =>
    intro entry (found : world.tree.status _ _ = _)
    rw [Run.pathExists_outcome, Tree.pathExists_eq_true.mpr ⟨entry, found⟩] at asked
    cases asked
  | true =>
    simp only [if_true, Run.unlink_outcome, Run.unlink_after] at ended ⊢
    rcases Tree.unlink_located world.tree world.session.cwd stray with
      ⟨error, failed, -⟩ | ⟨place, entry, located, held, noDirectory, -, erased⟩
    · rw [failed] at ended
      cases ended
    · rw [World.withTree_tree, erased]
      exact Tree.absent_of_erased located (Tree.ne_nil_of_held held noDirectory)

theorem removeStrays_absent (removed : (paths.forM removeStray).outcome world = .ok ()) :
    ∀ stray ∈ paths,
      ((paths.forM removeStray).after world).tree.Absent world.session.cwd stray := by
  induction paths generalizing world with
  | nil => exact nofun
  | cons stray rest ih =>
    rw [removeStrays_cons] at removed ⊢
    obtain ⟨_, first, later, left⟩ := outcome_bind_eq_ok removed
    have session := (removeStray_after stray world).1
    rw [left, List.forall_mem_cons]
    refine ⟨?_, by simpa only [session] using ih later⟩
    refine (removeStrays_after (fun tree => tree.Absent world.session.cwd stray)
      (removeStray_absent first) ?_).2.2
    intro other _ tree place entry absent _ held noDirectory
    exact absent.erase (Tree.ne_nil_of_held held noDirectory)

theorem compileOne_returned {output : Path}
    (ended : (compiler.compileOne layout source).outcome world = .ok output) :
    output = compiler.artifact layout source ∧ compiler.answer layout source world = .succeeded ∧
      ((strays (compiler.artifact layout source)).forM removeStray).outcome
          (compiler.called layout source world) = .ok () ∧
      (compiler.compileOne layout source).after world =
        ((strays (compiler.artifact layout source)).forM removeStray).after
          (compiler.called layout source world) := by
  have steps := ended
  rw [compileOne_eq] at steps
  obtain ⟨_, opened, -⟩ := outcome_bind_eq_ok steps
  by_cases succeeded : compiler.answer layout source world = .succeeded
  · obtain ⟨outcome, left⟩ := compileOne_of_succeeding opened succeeded
    rw [outcome] at ended
    cases removed : ((strays (compiler.artifact layout source)).forM removeStray).outcome
        (compiler.called layout source world) with
    | ok _ =>
      rw [removed] at ended
      exact ⟨(Except.ok.inj ended).symm, succeeded, rfl, left⟩
    | error failure =>
      rw [removed] at ended
      cases ended
  · obtain ⟨⟨failure, failed, -⟩, -⟩ := compileOne_of_failing opened succeeded
    rw [failed] at ended
    cases ended

theorem compile_returned {outputs : List Path} {rest : List SourceFile}
    (ended : (compiler.compile layout (source :: rest)).outcome world = .ok outputs) :
    ∃ later,
      (compiler.compileOne layout source).outcome world = .ok (compiler.artifact layout source) ∧
        (compiler.compile layout rest).outcome ((compiler.compileOne layout source).after world) =
          .ok later ∧
        outputs = compiler.artifact layout source :: later := by
  rw [compile_cons] at ended
  obtain ⟨output, first, onward, -⟩ := outcome_bind_eq_ok ended
  obtain ⟨later, second, last, -⟩ := outcome_bind_eq_ok onward
  obtain rfl := (compileOne_returned first).1
  exact ⟨later, first, second, (Except.ok.inj last).symm⟩

theorem library_ne_stray (platform : String) {suffix : String} (listed : suffix ∈ straySuffixes)
    (stem other : String) : stem ++ "." ++ librarySuffix platform ≠ other ++ suffix := by
  intro same
  -- One of the last four letters of the names differs.
  replace same := congrArg (fun name => name.toList.reverse) same
  simp only [straySuffixes, List.mem_cons, List.not_mem_nil, or_false] at listed
  rcases librarySuffix_cases platform with library | library | library <;> rw [library] at same <;>
    rcases listed with rfl | rfl | rfl | rfl <;> simp at same

section Named

variable {platform : String} (suffix : compiler.suffix = librarySuffix platform)
  (named : IsModuleName source.moduleName)

include suffix named

theorem artifact_below :
    ∃ directories stem, source.moduleName = "/".intercalate (directories ++ [stem]) ∧
      Path.FileBelow layout.binDir (compiler.artifact layout source) directories
        (stem ++ "." ++ librarySuffix platform) ∧
      ∀ stray ∈ straySuffixes, Path.FileBelow layout.binDir
        (layout.binDir / (source.moduleName ++ stray)) directories (stem ++ stray) := by
  obtain ⟨directories, stem, joined, below⟩ := named.fileBelow layout.binDir
  have library := below (isExtension_librarySuffix platform)
  rw [← String.append_assoc, ← String.append_assoc] at library
  rw [artifact, Layout.artifactPath, suffix]
  exact ⟨directories, stem, joined, library, fun _ listed => below (isExtension_stray listed)⟩

-- The stem of a library is the name of its module, whatever points that name has.
theorem strays_artifact :
    strays (compiler.artifact layout source) =
      straySuffixes.map fun stray => layout.binDir / (source.moduleName ++ stray) := by
  obtain ⟨directories, stem, -, library, beside⟩ := artifact_below suffix named
  have plain : '.' ∉ (librarySuffix platform).toList := by
    rcases librarySuffix_cases platform with same | same | same <;> rw [same] <;> decide
  rw [strays_eq library plain]
  exact List.map_congr_left fun stray listed => (beside stray listed).eq.symm

theorem artifact_apart {other : SourceFile} (alsoNamed : IsModuleName other.moduleName) :
    ∀ stray ∈ strays (compiler.artifact layout other),
      (compiler.artifact layout source).Apart stray := by
  obtain ⟨_, stem, -, library, -⟩ := artifact_below suffix named
  obtain ⟨_, otherStem, -, -, beside⟩ := artifact_below suffix alsoNamed
  rw [strays_artifact suffix alsoNamed, List.forall_mem_map]
  intro stray listed
  exact ⟨_, _, library.endsIn, (beside stray listed).endsIn, library_ne_stray platform listed _ _⟩

theorem artifact_inj {other : SourceFile} (alsoNamed : IsModuleName other.moduleName)
    (same : compiler.artifact layout source = compiler.artifact layout other) :
    source.moduleName = other.moduleName := by
  obtain ⟨directories, stem, joined, library, -⟩ := artifact_below suffix named
  obtain ⟨otherDirectories, otherStem, otherJoined, otherLibrary, -⟩ := artifact_below suffix alsoNamed
  rw [library.eq, otherLibrary.eq, Path.mk.injEq, List.append_cancel_left_eq] at same
  obtain ⟨rfl, last⟩ := List.append_inj' same.2 rfl
  have stems := (List.cons.inj last).1
  rw [String.append_left_inj, String.append_left_inj] at stems
  rw [joined, otherJoined, stems]

end Named

/-- Once the call for a source is made, none of the paths it is about is a link, whichever source of a
list it is. -/
def NeverAliased (compiler : Native) (layout : Layout) (sources : List SourceFile) (world : World) :
    Prop :=
  ∀ done source rest, sources = done ++ source :: rest →
    compiler.Unaliased layout source ((compiler.compile layout done).after world)

theorem neverAliased_nil (world : World) : compiler.NeverAliased layout [] world :=
  fun _ _ _ whole => absurd whole.symm (by simp)

theorem neverAliased_cons {output : Path} {rest : List SourceFile}
    (first : (compiler.compileOne layout source).outcome world = .ok output) :
    compiler.NeverAliased layout (source :: rest) world ↔
      compiler.Unaliased layout source world ∧
        compiler.NeverAliased layout rest ((compiler.compileOne layout source).after world) := by
  refine ⟨fun unaliased => ⟨unaliased [] source rest rfl, fun done later others whole => ?_⟩, ?_⟩
  · rw [← compile_after_cons first]
    exact unaliased (source :: done) later others (by rw [whole]; rfl)
  · rintro ⟨here, further⟩ done later others whole
    cases done with
    | nil =>
      obtain ⟨rfl, -⟩ := List.cons.inj whole
      exact here
    | cons earlier between =>
      obtain ⟨rfl, onward⟩ := List.cons.inj whole
      rw [compile_after_cons first]
      exact further between later others onward

section Kept

variable {outputs : List Path} {sources : List SourceFile}

theorem compileOne_session {output : Path}
    (ended : (compiler.compileOne layout source).outcome world = .ok output) :
    ((compiler.compileOne layout source).after world).session = world.session := by
  rw [(compileOne_returned ended).2.2.2, removeStrays_session, called_session]

theorem compileOne_stands {output : Path}
    (ended : (compiler.compileOne layout source).outcome world = .ok output)
    (unaliased : compiler.Unaliased layout source world)
    (apart : ∀ stray ∈ strays (compiler.artifact layout source), path.Apart stray)
    (stands : (compiler.called layout source world).tree.Stands world.session.cwd path place) :
    ((compiler.compileOne layout source).after world).tree.Stands world.session.cwd path place := by
  rw [(compileOne_returned ended).2.2.2]
  rw [← @called_session compiler layout source world] at stands ⊢
  refine removeStrays_stands stands apart fun stray member => ?_
  rw [called_session]
  exact unaliased stray (List.mem_cons_of_mem _ member)

theorem compile_stands (builds : compiler.runner.Builds)
    (ended : (compiler.compile layout sources).outcome world = .ok outputs)
    (unaliased : compiler.NeverAliased layout sources world)
    (apart : ∀ source ∈ sources, ∀ stray ∈ strays (compiler.artifact layout source), path.Apart stray)
    (stands : world.tree.Stands world.session.cwd path place) :
    ((compiler.compile layout sources).after world).tree.Stands world.session.cwd path place := by
  induction sources generalizing world outputs with
  | nil => exact stands
  | cons source rest ih =>
    rw [List.forall_mem_cons] at apart
    obtain ⟨later, first, onward, -⟩ := compile_returned ended
    obtain ⟨here, further⟩ := (neverAliased_cons first).mp unaliased
    rw [compile_after_cons first, ← compileOne_session first]
    refine ih onward further apart.2 ?_
    rw [compileOne_session first]
    exact compileOne_stands first here apart.1 (stands.fits (called_fits builds layout source world))

theorem compile_makes (builds : compiler.runner.Builds) (target : IsTarget layout.binDir)
    {platform : String} (suffix : compiler.suffix = librarySuffix platform)
    (named : ∀ source ∈ sources, IsModuleName source.moduleName)
    (ended : (compiler.compile layout sources).outcome world = .ok outputs)
    (unaliased : compiler.NeverAliased layout sources world) :
    ∀ source ∈ sources, ∃ place, ((compiler.compile layout sources).after world).tree.Stands
      world.session.cwd (compiler.artifact layout source) place := by
  induction sources generalizing world outputs with
  | nil => exact nofun
  | cons source rest ih =>
    obtain ⟨later, first, onward, -⟩ := compile_returned ended
    obtain ⟨here, further⟩ := (neverAliased_cons first).mp unaliased
    have apart : ∀ other ∈ source :: rest, ∀ stray ∈ strays (compiler.artifact layout other),
        (compiler.artifact layout source).Apart stray :=
      fun other member => artifact_apart suffix (named source List.mem_cons_self) (named other member)
    rw [List.forall_mem_cons] at named apart ⊢
    rw [compile_after_cons first, ← compileOne_session first]
    refine ⟨?_, ih named.2 onward further⟩
    obtain ⟨directories, stem, -, below, -⟩ := @artifact_below compiler layout source _ suffix named.1
    -- The library stands once its call is made, and what is removed from then on has other names.
    obtain ⟨place, stands⟩ := called_stands builds (below.spelled target.spelled)
      (by rw [below.eq, target.rooted]) (compileOne_returned first).2.1 here
    have stays := compileOne_stands first here apart.1 stands
    rw [← compileOne_session first] at stays
    exact ⟨place, compile_stands builds onward further apart.2 stays⟩

theorem compile_outputs (ended : (compiler.compile layout sources).outcome world = .ok outputs) :
    outputs = sources.map (compiler.artifact layout) := by
  induction sources generalizing world outputs with
  | nil => exact (Except.ok.inj ended).symm
  | cons source rest ih =>
    obtain ⟨later, -, onward, rfl⟩ := compile_returned ended
    rw [ih onward, List.map_cons]

theorem compile_absent {done rest : List SourceFile}
    (ended : (compiler.compile layout (done ++ source :: rest)).outcome world = .ok outputs) :
    ∀ stray ∈ strays (compiler.artifact layout source),
      ((compiler.compile layout (done ++ [source])).after world).tree.Absent world.session.cwd
        stray := by
  induction done generalizing world outputs with
  | nil =>
    obtain ⟨later, first, -, -⟩ := compile_returned ended
    obtain ⟨-, -, removed, left⟩ := compileOne_returned first
    have absent := removeStrays_absent removed
    rw [called_session] at absent
    rw [List.nil_append, compile_after_cons first, left]
    exact absent
  | cons earlier others ih =>
    obtain ⟨later, first, onward, -⟩ := compile_returned ended
    rw [List.cons_append, compile_after_cons first, ← compileOne_session first]
    exact ih onward

end Kept

end Native

end Compiler

open Compiler Native

/-- When sources are compiled, their libraries have different paths, and after each source nothing is
found under the names of its side products. All libraries are there in the end, unless a library or a
side product was a link. -/
theorem compile_keeps_libraries {compiler : Native} {layout : Layout} {platform : String}
    {sources : List SourceFile} {world : World} {outputs : List Path}
    (builds : compiler.runner.Builds) (target : IsTarget layout.binDir)
    (suffix : compiler.suffix = librarySuffix platform)
    (named : ∀ source ∈ sources, IsModuleName source.moduleName)
    (distinct : (sources.map (·.moduleName)).Nodup)
    (returned : (compiler.compile layout sources).outcome world = .ok outputs) :
    outputs.Nodup ∧
      (compiler.NeverAliased layout sources world →
        ∀ output ∈ outputs, ∃ content executable,
          ((compiler.compile layout sources).after world).tree.status world.session.cwd output =
            .ok (.file content executable)) ∧
      ∀ done source rest, sources = done ++ source :: rest → ∀ stray ∈ straySuffixes,
        ((compiler.compile layout (done ++ [source])).after world).tree.Absent world.session.cwd
          (layout.binDir / (source.moduleName ++ stray)) := by
  obtain rfl := compile_outputs returned
  refine ⟨?_, ?_, ?_⟩
  · have different : sources.Pairwise fun first second => first.moduleName ≠ second.moduleName :=
      List.pairwise_map.mp distinct
    rw [List.Nodup, List.pairwise_map]
    refine different.imp_of_mem fun {first second} member alsoMember other same => other ?_
    exact artifact_inj suffix (named first member) (named second alsoMember) same
  · intro unaliased
    rw [List.forall_mem_map]
    intro source member
    obtain ⟨place, stands⟩ := compile_makes builds target suffix named returned unaliased source member
    exact stands.status
  · rintro done source rest rfl stray listed
    refine compile_absent returned _ ?_
    rw [strays_artifact suffix (named source (by simp))]
    exact List.mem_map_of_mem listed

def Compiler.Runner.writing : Runner where
  run _ invocation tree :=
    match invocation.output?.map (tree.locate [] true) with
    | some (.ok place) =>
      match tree.entry? place with
      | some .directory | some (.link _) => (.exited 1 .none .none, tree)
      | _ => (.succeeded, tree.put place (.file [] true))
    | _ => (.exited 1 .none .none, tree)

theorem Compiler.Runner.writing_cases (count : Nat) (invocation : Invocation) (tree : Tree) :
    (Runner.writing.run count invocation tree).1 ≠ .succeeded ∧
        (Runner.writing.run count invocation tree).2 = tree ∨
      ∃ output place, invocation.output? = some output ∧ tree.locate [] true output = .ok place ∧
        tree.Writable place ∧
        (Runner.writing.run count invocation tree).2 = tree.put place (.file [] true) := by
  simp only [Runner.writing]
  split
  · next place found =>
    obtain ⟨output, told, located⟩ := Option.map_eq_some_iff.mp found
    split
    · exact .inl ⟨nofun, rfl⟩
    · exact .inl ⟨nofun, rfl⟩
    · next noDirectory noLink =>
      refine .inr ⟨output, place, told, located, fun entry held => ?_, rfl⟩
      cases entry with
      | file content executable => exact ⟨content, executable, rfl⟩
      | directory => exact absurd held noDirectory
      | link target => exact absurd held (noLink target)
  · exact .inl ⟨nofun, rfl⟩

theorem Compiler.Runner.writing_builds : Runner.writing.Builds where
  keeps count invocation tree := by
    rcases writing_cases count invocation tree with
      ⟨-, same⟩ | ⟨output, place, -, -, writable, put⟩
    · rw [same]
      exact refl tree
    · rw [put]
      exact Tree.put_file_fits writable _ _
  makes count invocation tree output succeeded told := by
    rcases writing_cases count invocation tree with
      ⟨failed, -⟩ | ⟨other, place, alsoTold, located, writable, put⟩
    · exact absurd succeeded failed
    · obtain rfl := Option.some.inj (told.symm.trans alsoTold)
      rw [put]
      exact ⟨[], true, Tree.status_eq_ok.mpr ⟨place, Tree.locate_put_file writable _ _ located,
        Tree.entry?_put_self _ _ writable.ne_nil⟩⟩

theorem Compiler.Runner.writing_run {invocation : Invocation} {output : Path} {tree : Tree}
    {place : Location} (told : invocation.output? = some output)
    (located : tree.locate [] true output = .ok place) (writable : tree.Writable place) (count : Nat) :
    Runner.writing.run count invocation tree = (.succeeded, tree.put place (.file [] true)) := by
  simp only [Runner.writing, told, Option.map_some, located]
  cases held : tree.entry? place with
  | none => rfl
  | some entry =>
    obtain ⟨content, executable, rfl⟩ := writable entry held
    rfl

def writer : Native where
  suffix := "so"
  runner := .writing

theorem binLayout_isTarget : IsTarget binLayout.binDir :=
  ⟨rfl, List.forall_mem_singleton.mpr (by decide)⟩

theorem isModuleName_flat {name : String} (clear : '/' ∉ name.toList) : IsModuleName name :=
  ⟨[], name, nofun, clear, by simp⟩

section Writing

open Run

variable {name : String} {tree after : Tree} {place : Location} {world : World}

theorem writer_output (clear : '/' ∉ name.toList) :
    writer.artifact binLayout (sourceNamed name) = Location.path ["bin", name ++ "." ++ "so"] :=
  (@artifact_flat (fun _ => .succeeded) name clear).eq

theorem writer_told (clear : '/' ∉ name.toList) :
    (writer.callFor binLayout (sourceNamed name)).output? =
      some (writer.artifact binLayout (sourceNamed name)) := by
  have below := @artifact_flat (fun _ => .succeeded) name clear
  exact invocation_output? writer binLayout _
    (below.spelled (List.forall_mem_singleton.mpr (by decide))) (congrArg Path.anchor below.eq)

theorem bin_present (directory : tree.entry? ["bin"] = some .directory) :
    (Tree.makeDirectories [] (Location.path ["bin"])).outcome tree = .ok () ∧
      (Tree.makeDirectories [] (Location.path ["bin"])).after tree = tree :=
  Tree.makeDirectories_of_present (by decide) (by decide)
    (fun _ => Tree.Leads.walk_eq (.into (by decide) (by decide) directory (.done _ _))) directory

theorem no_strays {suffixes : List String} (stray : suffixes ⊆ straySuffixes)
    (directory : tree.entry? ["bin"] = some .directory) (clear : '/' ∉ name.toList)
    (short : ∀ suffix ∈ suffixes, (name ++ suffix).utf8ByteSize ≤ nameLimit)
    (free : ∀ suffix ∈ suffixes, tree.entry? ["bin", name ++ suffix] = none) :
    Yields ((suffixes.map fun suffix => Location.path ["bin", name ++ suffix]).forM removeStray)
      emptyBin.session tree () tree :=
  yields_removeStrays <| List.forall_mem_map.mpr fun suffix listed =>
    free_in_bin directory ((isExtension_stray (stray listed)).isName clear).2 (short suffix listed)
      (free suffix listed)

theorem stray_taken {entry : Entry} (directory : tree.entry? ["bin"] = some .directory)
    (located : tree.locate [] false (Location.path ["bin", "b.pdb"]) = .ok ["bin", "b.pdb"])
    (present : tree.pathExists [] (Location.path ["bin", "b.pdb"]) = .ok true)
    (held : tree.entry? ["bin", "b.pdb"] = some entry) (noDirectory : entry ≠ .directory)
    (free : ∀ suffix ∈ straySuffixes.tail, tree.entry? ["bin", "b" ++ suffix] = none) :
    Yields ((straySuffixes.map fun suffix => Location.path ["bin", "b" ++ suffix]).forM removeStray)
      emptyBin.session tree () (tree.erase ["bin", "b.pdb"]) := by
  have others : ∀ suffix ∈ straySuffixes.tail,
      Tree.entry? (tree.erase ["bin", "b.pdb"]) ["bin", "b" ++ suffix] = none := by
    intro suffix listed
    have different : ["bin", "b" ++ suffix] ≠ ["bin", "b.pdb"] :=
      (by decide : ∀ suffix ∈ straySuffixes.tail, ["bin", "b" ++ suffix] ≠ ["bin", "b.pdb"]) suffix
        listed
    rw [Tree.entry?_erase_of_ne _ different, free suffix listed]
  have still : Tree.entry? (tree.erase ["bin", "b.pdb"]) ["bin"] = some .directory := by
    rw [Tree.entry?_erase_of_ne _ (by decide), directory]
  exact (yields_removeStray present (Tree.unlink_of_held located held noDirectory)).bind
    (no_strays (List.tail_subset straySuffixes) still (by decide) (by decide) others)

variable (clear : '/' ∉ name.toList) (directory : tree.entry? ["bin"] = some .directory)
  (located : tree.locate [] true (Location.path ["bin", name ++ "." ++ "so"]) = .ok place)
  (writable : tree.Writable place)

include clear directory located writable

theorem writer_called (bare : world.Bare emptyBin.session tree) :
    (writer.called binLayout (sourceNamed name) world).Bare emptyBin.session
      (tree.put place (.file [] true)) := by
  have ready : (writer.ready binLayout (sourceNamed name) world).Bare emptyBin.session tree := by
    rw [Native.ready, writer_output clear]
    exact (yields_log _ _ (yields_makeDirectories (bin_present directory) world bare).2).2
  rw [← writer_output clear] at located
  exact called_bare ready
    (congrArg Prod.snd (Runner.writing_run (writer_told clear) located writable _))

theorem writer_yields
    (cleared : Yields
      ((straySuffixes.map fun suffix => Location.path ["bin", name ++ suffix]).forM removeStray)
      emptyBin.session (tree.put place (.file [] true)) () after) :
    Yields (writer.compileOne binLayout (sourceNamed name)) emptyBin.session tree
      (Location.path ["bin", name ++ "." ++ "so"]) after := by
  rw [← writer_output clear] at located ⊢
  rw [← @scripted_strays (fun _ => .succeeded) name clear] at cleared
  have parent : (writer.artifact binLayout (sourceNamed name)).parent = Location.path ["bin"] := by
    rw [writer_output clear]
    rfl
  refine yields_compileOne rfl (parent ▸ bin_present directory) ?_ cleared
  exact Runner.writing_run (writer_told clear) located writable

end Writing

def firstBuilt : Tree := emptyBin.tree.put ["bin", "a.so"] (.file [] true)

def bothBuilt : Tree := firstBuilt.put ["bin", "b.so"] (.file [] true)

theorem writer_keeps_both :
    ∃ outputs, (writer.compile binLayout [sourceNamed "a", sourceNamed "b"]).outcome emptyBin =
        .ok outputs ∧
      outputs.Nodup ∧
      ∀ output ∈ outputs, ∃ content executable,
        ((writer.compile binLayout [sourceNamed "a", sourceNamed "b"]).after emptyBin).tree.status []
          output = .ok (.file content executable) := by
  have start : emptyBin.tree.Regular := by decide
  have between : firstBuilt.Regular := by decide
  have left : bothBuilt.Regular := by decide
  have free : emptyBin.tree.Vacancy ["bin", "a.so"] := by decide
  have further : firstBuilt.Vacancy ["bin", "b.so"] := by decide
  have bare : emptyBin.Bare emptyBin.session emptyBin.tree := ⟨rfl, rfl, rfl⟩
  have first := @writer_yields "a" emptyBin.tree firstBuilt ["bin", "a.so"] (by decide) rfl
    (start.locate_free free [] true) (Tree.writable_of_free free.free)
    (no_strays (List.Subset.refl _) rfl (by decide) (by decide) (by decide)) emptyBin bare
  have second := @writer_yields "b" firstBuilt bothBuilt ["bin", "b.so"] (by decide) rfl
    (between.locate_free further [] true) (Tree.writable_of_free further.free)
    (no_strays (List.Subset.refl _) rfl (by decide) (by decide) (by decide)) _ first.2
  have firstCalled := @writer_called "a" emptyBin.tree ["bin", "a.so"] emptyBin (by decide) rfl
    (start.locate_free free [] true) (Tree.writable_of_free free.free) bare
  have secondCalled := @writer_called "b" firstBuilt ["bin", "b.so"] _ (by decide) rfl
    (between.locate_free further [] true) (Tree.writable_of_free further.free) first.2
  have unaliased : writer.NeverAliased binLayout [sourceNamed "a", sourceNamed "b"] emptyBin := by
    rw [neverAliased_cons first.1, neverAliased_cons second.1]
    refine ⟨fun path _ => ?_, fun path _ => ?_, neverAliased_nil _⟩
    · rw [firstCalled.tree]
      exact between.unlinked.noLink _ _
    · rw [secondCalled.tree]
      exact left.unlinked.noLink _ _
  have named : ∀ source ∈ [sourceNamed "a", sourceNamed "b"], IsModuleName source.moduleName := by
    simp only [List.forall_mem_cons, List.not_mem_nil, false_implies, implies_true, and_true]
    exact ⟨isModuleName_flat (by decide), isModuleName_flat (by decide)⟩
  have returned : (writer.compile binLayout [sourceNamed "a", sourceNamed "b"]).outcome emptyBin =
      .ok [Location.path ["bin", "a.so"], Location.path ["bin", "b.so"]] := by
    simp only [compile, outcome_bind, first.1, second.1]
    rfl
  obtain ⟨different, kept, -⟩ := @compile_keeps_libraries writer binLayout "linux" _ _ _
    Runner.writing_builds binLayout_isTarget (by decide +kernel) named (by decide) returned
  exact ⟨_, returned, different, kept unaliased⟩

def linkedLibrary : World where
  tree := { entries := [(["bin"], .directory), (["bin", "a.so"], .link "b.pdb")] }
  session := emptyBin.session
  time := ""

def linkedDirectory : World where
  tree := { entries := [(["bin"], .directory), (["bin", "deep"], .directory),
    (["bin", "b.pdb"], .link "deep")] }
  session := emptyBin.session
  time := ""

def redirected : Tree := linkedLibrary.tree.put ["bin", "b.pdb"] (.file [] true)

def redirectedBoth : Tree := redirected.put ["bin", "b.so"] (.file [] true)

theorem linkedLibrary_lost :
    (writer.compile binLayout [sourceNamed "a", sourceNamed "b"]).outcome linkedLibrary =
        .ok [Location.path ["bin", "a.so"], Location.path ["bin", "b.so"]] ∧
      ((writer.compile binLayout [sourceNamed "a", sourceNamed "b"]).after linkedLibrary).tree.pathExists
        [] (Location.path ["bin", "a.so"]) = .ok false := by
  have through : ∀ tree : Tree, tree.entry? ["bin"] = some .directory →
      tree.entry? ["bin", "a.so"] = some (.link "b.pdb") → tree.entry? ["bin", "b.pdb"] = none →
      tree.locate [] true (Location.path ["bin", "a.so"]) = .ok ["bin", "b.pdb"] :=
    fun tree directory linked free => Tree.Leads.walk_eq
      (.into (by decide) (by decide) directory (.through (by decide) (by decide) linked (by decide)
        (by decide) (.last (by decide) (by decide) (Tree.writable_of_free free))))
  have beside := @locate_in_bin redirectedBoth "b.pdb" rfl (by decide) (by decide)
    (Tree.writable_of_file rfl)
  have cleared := @stray_taken redirectedBoth _ rfl (beside false)
    (Tree.pathExists_eq_true.mpr ⟨_, Tree.status_eq_ok.mpr ⟨_, beside true, rfl⟩⟩) rfl nofun
    (by decide)
  have first := @writer_yields "a" linkedLibrary.tree redirected ["bin", "b.pdb"] (by decide) rfl
    (through _ rfl rfl rfl) (Tree.writable_of_free rfl)
    (no_strays (List.Subset.refl _) rfl (by decide) (by decide) (by decide))
  have free : redirected.Writable ["bin", "b.so"] := Tree.writable_of_free rfl
  have second := @writer_yields "b" redirected _ ["bin", "b.so"] (by decide) rfl
    (locate_in_bin rfl (by decide) (by decide) free true) free cleared
  have compiled : Run.Yields (writer.compile binLayout [sourceNamed "a", sourceNamed "b"])
      emptyBin.session linkedLibrary.tree [Location.path ["bin", "a.so"], Location.path ["bin", "b.so"]]
      (redirectedBoth.erase ["bin", "b.pdb"]) :=
    yields_compile_cons first (yields_compile_cons second (Run.yields_pure _ _ _))
  obtain ⟨returned, left⟩ := compiled linkedLibrary ⟨rfl, rfl, rfl⟩
  rw [left.tree]
  exact ⟨returned, Tree.pathExists_of_free (through _ rfl rfl rfl) rfl⟩

def deepened : Tree := linkedDirectory.tree.put ["bin", "deep", "a.so"] (.file [] true)

def deepenedBoth : Tree := deepened.put ["bin", "b.so"] (.file [] true)

theorem deepFirst_yields :
    Run.Yields (writer.compileOne binLayout (sourceNamed "b.pdb/a")) emptyBin.session
      linkedDirectory.tree (Location.path ["bin", "b.pdb", "a.so"]) deepened := by
  have linked : linkedDirectory.tree.isDirectory [] (Location.path ["bin", "b.pdb"]) = .ok true :=
    Tree.isDirectory_of_located (Tree.Leads.walk_eq (.into (by decide) (by decide) rfl
      (.through (by decide) (by decide) rfl (by decide) (by decide)
        (.into (by decide) (by decide) rfl (.done _ _))))) rfl
  have directory := @Tree.makeDirectories_of_held linkedDirectory.tree [] _
    (Location.path ["bin", "b.pdb"]) _ (by decide) (by decide)
    (Tree.Leads.walk_eq (.into (by decide) (by decide) rfl (.stay (by decide) (by decide) rfl rfl)))
    rfl linked
  have located : linkedDirectory.tree.locate [] true (Location.path ["bin", "b.pdb", "a.so"]) =
      .ok ["bin", "deep", "a.so"] := Tree.Leads.walk_eq
    (.into (by decide) (by decide) rfl (.through (by decide) (by decide) rfl (by decide) (by decide)
      (.into (by decide) (by decide) rfl
        (.last (by decide) (by decide) (Tree.writable_of_free rfl)))))
  have absent : ∀ stray ∈ straySuffixes.map (fun suffix => Location.path ["bin", "b.pdb", "a" ++ suffix]),
      deepened.pathExists [] stray = .ok false := by
    refine List.forall_mem_map.mpr fun suffix listed => ?_
    have accepted := (by decide : ∀ suffix ∈ straySuffixes, IsAccepted ("a" ++ suffix)) suffix listed
    have free := (by decide : ∀ suffix ∈ straySuffixes,
      deepened.entry? ["bin", "deep", "a" ++ suffix] = none) suffix listed
    exact Tree.pathExists_of_free (Tree.Leads.walk_eq (.into (by decide) (by decide) rfl
      (.through (by decide) (by decide) rfl (by simp) (by decide)
        (.into (by decide) (by decide) rfl
          (.last accepted.down accepted.short (Tree.writable_of_free free)))))) free
  have strays : strays (Location.path ["bin", "b.pdb", "a.so"]) =
      straySuffixes.map fun suffix => Location.path ["bin", "b.pdb", "a" ++ suffix] := by
    decide +kernel
  have spelled : (Location.path ["bin", "b.pdb", "a.so"]).Spelled := by
    unfold Path.Spelled
    decide
  refine yields_compileOne (by decide +kernel) directory (Runner.writing_run ?_ located
    (Tree.writable_of_free rfl)) (strays ▸ yields_removeStrays absent)
  exact invocation_output? writer binLayout _ spelled rfl

theorem linkedDirectory_lost :
    (writer.compile binLayout [sourceNamed "b.pdb/a", sourceNamed "b"]).outcome linkedDirectory =
        .ok [Location.path ["bin", "b.pdb", "a.so"], Location.path ["bin", "b.so"]] ∧
      ((writer.compile binLayout [sourceNamed "b.pdb/a", sourceNamed "b"]).after
        linkedDirectory).tree.pathExists [] (Location.path ["bin", "b.pdb", "a.so"]) = .ok false := by
  have present : deepenedBoth.pathExists [] (Location.path ["bin", "b.pdb"]) = .ok true :=
    Tree.pathExists_eq_true.mpr ⟨.directory, Tree.status_eq_ok.mpr ⟨["bin", "deep"],
      Tree.Leads.walk_eq (.into (by decide) (by decide) rfl (.through (by decide) (by decide) rfl
        (by decide) (by decide) (.into (by decide) (by decide) rfl (.done _ _)))), rfl⟩⟩
  have cleared := @stray_taken deepenedBoth _ rfl (Tree.Leads.walk_eq (.into (by decide) (by decide)
    rfl (.stay (by decide) (by decide) rfl rfl))) present rfl nofun (by decide)
  have free : deepened.Writable ["bin", "b.so"] := Tree.writable_of_free rfl
  have second := @writer_yields "b" deepened _ ["bin", "b.so"] (by decide) rfl
    (locate_in_bin rfl (by decide) (by decide) free true) free cleared
  have compiled : Run.Yields (writer.compile binLayout [sourceNamed "b.pdb/a", sourceNamed "b"])
      emptyBin.session linkedDirectory.tree
      [Location.path ["bin", "b.pdb", "a.so"], Location.path ["bin", "b.so"]]
      (deepenedBoth.erase ["bin", "b.pdb"]) :=
    yields_compile_cons deepFirst_yields (yields_compile_cons second (Run.yields_pure _ _ _))
  obtain ⟨returned, left⟩ := compiled linkedDirectory ⟨rfl, rfl, rfl⟩
  have regular : (deepenedBoth.erase ["bin", "b.pdb"]).Regular := by decide
  rw [left.tree]
  exact ⟨returned, regular.pathExists_absent (by decide) rfl _⟩

/-- The second of two sources takes away what the library of the first is found through. -/
theorem linked_not_kept :
    (writer.runner.Builds ∧ IsTarget binLayout.binDir ∧ writer.suffix = librarySuffix "linux" ∧
      ∀ name ∈ ["a", "b.pdb/a", "b"], IsModuleName name) ∧
    ((writer.compile binLayout [sourceNamed "a", sourceNamed "b"]).outcome linkedLibrary =
        .ok [Location.path ["bin", "a.so"], Location.path ["bin", "b.so"]] ∧
      ((writer.compile binLayout [sourceNamed "a", sourceNamed "b"]).after linkedLibrary).tree.pathExists
        [] (Location.path ["bin", "a.so"]) = .ok false) ∧
    (writer.compile binLayout [sourceNamed "b.pdb/a", sourceNamed "b"]).outcome linkedDirectory =
        .ok [Location.path ["bin", "b.pdb", "a.so"], Location.path ["bin", "b.so"]] ∧
      ((writer.compile binLayout [sourceNamed "b.pdb/a", sourceNamed "b"]).after
        linkedDirectory).tree.pathExists [] (Location.path ["bin", "b.pdb", "a.so"]) = .ok false := by
  have named : ∀ name ∈ ["a", "b.pdb/a", "b"], IsModuleName name := by
    simp only [List.forall_mem_cons, List.not_mem_nil, false_implies, implies_true, and_true]
    have below : IsModuleName "b.pdb/a" :=
      ⟨["b.pdb"], "a", List.forall_mem_singleton.mpr (by decide), by decide, rfl⟩
    exact ⟨isModuleName_flat (by decide), below, isModuleName_flat (by decide)⟩
  exact ⟨⟨Runner.writing_builds, binLayout_isTarget, by decide +kernel, named⟩, linkedLibrary_lost,
    linkedDirectory_lost⟩

end FfiBindings
