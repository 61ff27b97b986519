import FfiBindings.Compiler.Native
import FfiBindings.Proofs.Discovery
import FfiBindings.Proofs.Run.Frame

set_option autoImplicit false

namespace FfiBindings

open ExceptT

structure Path.FileBelow (base path : Path) (directories : List String) (last : String) : Prop where
  names : ∀ part ∈ directories ++ [last], IsName part
  eq : path = { base with parts := base.parts ++ (directories ++ [last]) }

namespace Path.FileBelow

variable {base path : Path} {directories : List String} {last : String}

theorem directories_ne_up (below : FileBelow base path directories last) :
    ∀ part ∈ directories, part ≠ ".." :=
  fun part member => (below.names part (List.mem_append_left _ member)).2

theorem location (below : FileBelow base path directories last) :
    path.location = base.location ++ (directories ++ [last]) := by
  rw [below.eq, Path.location, Location.steps_append,
    Location.steps_of_names fun part member => (below.names part member).2]
  rfl

theorem location_parent (below : FileBelow base path directories last) :
    path.parent.location = base.location ++ directories := by
  rw [below.eq, Path.parent, Path.location, ← List.append_assoc, List.dropLast_concat,
    Location.steps_append, Location.steps_of_names below.directories_ne_up]
  rfl

theorem location_withName (below : FileBelow base path directories last) {name : String}
    (notUp : name ≠ "..") :
    (path.withName name).location = base.location ++ (directories ++ [name]) := by
  have onward : ∀ part ∈ directories ++ [name], part ≠ ".." := by
    intro part member
    rcases List.mem_append.mp member with inside | same
    · exact below.directories_ne_up part inside
    · rwa [List.mem_singleton.mp same]
  have parts : (path.withName name).parts = base.parts ++ (directories ++ [name]) := by
    simp only [below.eq, Path.withName, ← List.append_assoc, List.dropLast_concat]
  rw [Path.location, parts, Location.steps_append, Location.steps_of_names onward]
  rfl

theorem spelled (below : FileBelow base path directories last) (spelled : base.Spelled) :
    path.Spelled := by
  rw [below.eq]
  intro part member
  rcases List.mem_append.mp member with inside | name
  · exact spelled part inside
  · exact (below.names part name).1

end Path.FileBelow

theorem IsModuleName.fileBelow {moduleName : String} (named : IsModuleName moduleName) (base : Path) :
    ∃ directories stem, moduleName = "/".intercalate (directories ++ [stem]) ∧
      ∀ {extension : String}, IsExtension extension →
        Path.FileBelow base (base / (moduleName ++ extension)) directories (stem ++ extension) := by
  obtain ⟨directories, stem, joined, spelled⟩ := named.exists_names
  refine ⟨directories, stem, joined, @fun extension proper => ⟨(spelled proper).1, ?_⟩⟩
  change base.join (Path.ofString (moduleName ++ extension)) = _
  rw [(spelled proper).2]
  rfl

namespace Compiler

def Invocation.output? (invocation : Invocation) : Option Path :=
  match invocation.arguments.tail.dropWhile (· != "-o") with
  | _ :: text :: _ => some (invocation.directory.join (Path.ofString text))
  | _ => none

/-- A runner whose calls only create files, and only in the directory of the output. -/
def Runner.CreatesBesideOutput (runner : Runner) : Prop :=
  ∀ count invocation tree location,
    Tree.entry? (runner.run count invocation tree).2 location = tree.entry? location ∨
      ((∃ content executable,
          Tree.entry? (runner.run count invocation tree).2 location =
            some (.file content executable)) ∧
        ∃ output, invocation.output? = some output ∧
          location.dropLast = output.parent.location)

def Invocation.linked (invocation : Invocation) (tree : Tree) : Tree :=
  match invocation.output? with
  | some output => tree.put (output.parent.location ++ [output.name]) (.file [] true)
  | none => tree

def Runner.linking : Runner where
  run _ invocation tree := (.succeeded, invocation.linked tree)

theorem Runner.linking_createsBesideOutput : linking.CreatesBesideOutput := by
  intro count invocation tree location
  change Tree.entry? (invocation.linked tree) location = _ ∨
    ((∃ content executable, Tree.entry? (invocation.linked tree) location = _) ∧ _)
  unfold Invocation.linked
  cases told : invocation.output? with
  | none => exact .inl rfl
  | some output =>
    by_cases here : location = output.parent.location ++ [output.name]
    · subst here
      exact .inr ⟨⟨[], true, Tree.entry?_put_self _ _ (by simp)⟩, output, rfl, by simp⟩
    · exact .inl (Tree.entry?_put_of_ne _ _ here)

theorem hyphen_notMem_crateName (stem : String) : '-' ∉ (crateName stem).toList := by
  have replaced : '-' ∉ stem.toList.map fun c => if Text.isWordChar c then c else '_' := by
    simp only [List.mem_map, not_exists, not_and]
    intro c _ same
    split at same
    · next word =>
      rw [same] at word
      exact absurd word (by decide)
    · exact absurd same (by decide)
  unfold crateName
  simp only
  split
  · decide
  · next first rest letters =>
    rw [String.toList_ofList]
    split
    · simpa using replaced
    · exact replaced

theorem librarySuffix_cases (platform : String) :
    librarySuffix platform = "dll" ∨ librarySuffix platform = "dylib" ∨
      librarySuffix platform = "so" := by
  unfold librarySuffix
  split
  · exact .inl rfl
  · split
    · exact .inr (.inl rfl)
    · exact .inr (.inr rfl)

theorem isExtension_librarySuffix (platform : String) :
    IsExtension ("." ++ librarySuffix platform) := by
  rcases librarySuffix_cases platform with same | same | same <;> rw [same]
  · exact ⟨by decide, 'd', by decide, by decide⟩
  · exact ⟨by decide, 'd', by decide, by decide⟩
  · exact ⟨by decide, 's', by decide, by decide⟩

namespace Native

theorem invocation_output? (compiler : Native) (layout : Layout) (source : SourceFile)
    {output : Path} (spelled : output.Spelled) (rooted : output.anchor = .root) :
    (compiler.invocation layout source output).output? = some output := by
  have crate : (crateName source.stem != "-o") = true := by
    rw [bne_iff_ne]
    intro same
    exact hyphen_notMem_crateName source.stem (by simp [same])
  simp only [Invocation.output?, invocation, List.cons_append, List.nil_append, List.tail_cons,
    List.dropWhile, crate]
  change some (layout.root.join (Path.ofString output.toString)) = some output
  rw [Path.ofString_toString spelled rooted]
  simp [Path.join, Path.isAbsolute, rooted]

variable {compiler : Native} {touched : Location → Prop}

theorem call_after (compiler : Native) (source : SourceFile) (invocation : Invocation)
    (world : World) :
    (compiler.call source invocation).after world =
      { world.withTree (compiler.runner.run world.calls.length invocation world.tree).2 with
        calls := world.calls ++ [invocation] } := by
  unfold call
  simp only [after_bind, outcome_get, after_get, outcome_set, after_set]
  cases (compiler.runner.run world.calls.length invocation world.tree).1 <;> rfl

theorem call_frame (confined : compiler.runner.CreatesBesideOutput) (source : SourceFile)
    {invocation : Invocation} {output : Path} (told : invocation.output? = some output)
    (inside : ∀ name, touched (output.parent.location ++ [name])) (world : World) :
    World.Frame touched world ((compiler.call source invocation).after world) := by
  rw [call_after]
  have effect := confined world.calls.length invocation world.tree
  generalize (compiler.runner.run world.calls.length invocation world.tree).2 = tree at effect
  have frame : World.Frame touched world (world.withTree tree) := by
    apply World.frame_withTree
    · intro unlinked location target linked
      rcases effect location with same | ⟨⟨content, executable, file⟩, -⟩
      · exact unlinked location target (by rw [← same, linked])
      · rw [file] at linked
        cases linked
    · intro unlinked location outside
      rcases effect location with same | ⟨⟨content, executable, file⟩, other, named, beside⟩
      · exact .inl same
      · obtain rfl : output = other := Option.some.inj (told.symm.trans named)
        rcases List.eq_nil_or_concat location with rfl | ⟨directory, name, rfl⟩
        · simp at file
        · rw [List.concat_eq_append] at beside outside
          rw [List.dropLast_concat] at beside
          exact absurd (beside ▸ inside name) outside
  intro unlinked
  have framed := frame unlinked
  exact ⟨framed.session, framed.logs, framed.unlinked, framed.alone⟩

theorem removeStray_frame {stray : Path} (rooted : stray.isAbsolute = true)
    (inside : touched stray.location) (world : World) :
    World.Frame touched world ((removeStray stray).after world) := by
  unfold removeStray
  refine rel_after_bind (by simpa using World.Frame.refl touched world) fun present _ => ?_
  rw [Run.pathExists_after]
  cases present
  · exact World.Frame.refl touched world
  · exact Run.unlink_frame rooted inside world

theorem removeStrays_cons (stray : Path) (rest : List Path) :
    (stray :: rest).forM removeStray = removeStray stray >>= fun _ => rest.forM removeStray := rfl

theorem removeStrays_frame (paths : List Path)
    (inside : ∀ stray ∈ paths, stray.isAbsolute = true ∧ touched stray.location) (world : World) :
    World.Frame touched world ((paths.forM removeStray).after world) := by
  induction paths generalizing world with
  | nil => exact World.Frame.refl touched world
  | cons stray rest ih =>
    rw [List.forall_mem_cons] at inside
    rw [removeStrays_cons]
    exact rel_after_bind (removeStray_frame inside.1.1 inside.1.2 world) fun _ _ => ih inside.2 _

theorem isExtension_stray {suffix : String} (listed : suffix ∈ straySuffixes) :
    IsExtension suffix := by
  simp only [straySuffixes, List.mem_cons, List.not_mem_nil, or_false] at listed
  rcases listed with rfl | rfl | rfl | rfl
  · exact ⟨by decide, 'p', by decide, by decide⟩
  · exact ⟨by decide, 'd', by decide, by decide⟩
  · exact ⟨by decide, 'd', by decide, by decide⟩
  · exact ⟨by decide, 'd', by decide, by decide⟩

theorem mem_strays {output stray : Path} (member : stray ∈ strays output) :
    ∃ name, name ≠ ".." ∧ stray = output.withName name := by
  simp only [strays, List.mem_map] at member
  obtain ⟨suffix, listed, rfl⟩ := member
  refine ⟨_, ?_, rfl⟩
  obtain ⟨-, c, inside, notPoint⟩ := isExtension_stray listed
  intro up
  have : c ∈ "..".toList := by
    rw [← up]
    simp [inside]
  simp [notPoint] at this

structure IsTarget (directory : Path) : Prop where
  rooted : directory.anchor = .root
  spelled : directory.Spelled

theorem compileOne_frame (confined : compiler.runner.CreatesBesideOutput)
    (proper : IsExtension ("." ++ compiler.suffix)) {layout : Layout}
    (target : IsTarget layout.binDir) {source : SourceFile}
    (named : IsModuleName source.moduleName) (world : World) :
    World.Frame (fun location => layout.binDir.location.covers location = true) world
      ((compiler.compileOne layout source).after world) := by
  obtain ⟨directories, stem, -, below⟩ := named.fileBelow layout.binDir
  replace below := below proper
  rw [← String.append_assoc] at below
  change Path.FileBelow layout.binDir (layout.artifactPath source.moduleName compiler.suffix)
    directories _ at below
  unfold compileOne
  simp only
  generalize layout.artifactPath source.moduleName compiler.suffix = output at below ⊢
  have rooted : output.anchor = .root := by rw [below.eq, target.rooted]
  have told : (compiler.invocation layout source output).output? = some output :=
    compiler.invocation_output? layout source (below.spelled target.spelled) rooted
  have beside : ∀ name,
      layout.binDir.location.covers (output.parent.location ++ [name]) = true := by
    intro name
    rw [below.location_parent, List.append_assoc]
    exact Location.covers_append _ _
  refine rel_after_bind (Run.makeDirectories_frame _ _ world) fun _ _ => ?_
  refine rel_after_bind (World.log_frame _ _ _) fun _ _ => ?_
  refine rel_after_bind (call_frame confined source told beside _) fun _ _ => ?_
  refine rel_after_bind (removeStrays_frame _ ?_ _) fun _ _ => World.Frame.refl _ _
  intro stray member
  obtain ⟨name, notUp, rfl⟩ := mem_strays member
  refine ⟨by simp [Path.isAbsolute, Path.withName, rooted], ?_⟩
  rw [below.location_withName notUp]
  exact Location.covers_append _ _

theorem compile_frame (confined : compiler.runner.CreatesBesideOutput)
    (proper : IsExtension ("." ++ compiler.suffix)) {layout : Layout}
    (target : IsTarget layout.binDir) (sources : List SourceFile)
    (named : ∀ source ∈ sources, IsModuleName source.moduleName) (world : World) :
    World.Frame (fun location => layout.binDir.location.covers location = true) world
      ((compiler.compile layout sources).after world) := by
  induction sources generalizing world with
  | nil => exact World.Frame.refl _ world
  | cons source rest ih =>
    rw [List.forall_mem_cons] at named
    unfold compile
    refine rel_after_bind (compileOne_frame confined proper target named.1 world) fun _ _ => ?_
    exact rel_after_bind (ih named.2 _) fun _ _ => World.Frame.refl _ _

end Native

end Compiler

end FfiBindings
