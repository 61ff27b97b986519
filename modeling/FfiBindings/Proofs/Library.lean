import FfiBindings.Proofs.Compiler
import FfiBindings.Proofs.Generation.Frame
import FfiBindings.Proofs.Layout
import FfiBindings.Proofs.Tree.Resolution

-- The binding puts the suffix behind the text of the way to the library, the compiler behind the
-- name of the module. Both end at the same place, unless the way goes up only.

set_option autoImplicit false

namespace FfiBindings

open ExceptT

/-- The path with every `..` carried out. -/
def Path.normal (path : Path) : Path :=
  { path with parts := path.location }

def Layout.openedLibrary (layout : Layout) (moduleName suffix : String) : String :=
  (layout.modulePath moduleName).parent.toString ++ "/" ++
    (layout.libraryPath moduleName ++ "." ++ suffix)

def IsNamePath (moduleName : String) : Prop :=
  ∀ piece ∈ Text.splitAt '/' moduleName.toList,
    piece ≠ [] ∧ piece ≠ ['.'] ∧ piece ≠ ['.', '.']

theorem IsNamePath.exists_names {moduleName : String} (path : IsNamePath moduleName) :
    ∃ directories stem, (∀ part ∈ directories ++ [stem], IsName part) ∧
      moduleName = "/".intercalate (directories ++ [stem]) := by
  have joined : moduleName =
      "/".intercalate ((Text.splitAt '/' moduleName.toList).map String.ofList) := by
    apply String.toList_inj.mp
    rw [String.toList_intercalate, List.map_map]
    simpa using (Text.intercalate_splitAt '/' moduleName.toList).symm
  have names : ∀ part ∈ (Text.splitAt '/' moduleName.toList).map String.ofList, IsName part := by
    intro part member
    obtain ⟨piece, split, rfl⟩ := List.mem_map.mp member
    obtain ⟨given, notPoint, notUp⟩ := path piece split
    have differs : ∀ text : String, piece ≠ text.toList → String.ofList piece ≠ text := by
      intro text other same
      exact other (by rw [← same, String.toList_ofList])
    refine ⟨⟨differs "" given, differs "." notPoint, ?_⟩, differs ".." notUp⟩
    simpa using Text.notMem_of_mem_splitAt split
  rcases List.eq_nil_or_concat ((Text.splitAt '/' moduleName.toList).map String.ofList) with
    none | ⟨directories, stem, whole⟩
  · exact absurd (List.map_eq_nil_iff.mp none) (Text.splitAt_ne_nil '/' _)
  · rw [List.concat_eq_append] at whole
    rw [whole] at joined names
    exact ⟨directories, stem, names, joined⟩

namespace Path

theorem anchorOf_intercalate_append {parts : List String} (some : parts ≠ [])
    (spelled : ∀ part ∈ parts, IsComponent part) (more : List Char) :
    anchorOf (("/".intercalate parts).toList ++ more) = .here := by
  apply anchorOf_of_head
  intro c head
  apply head_intercalate spelled c
  cases letters : ("/".intercalate parts).toList with
  | nil =>
    have empty := partsOf_intercalate spelled
    rw [letters] at empty
    exact absurd empty.symm some
  | cons first rest =>
    rw [letters] at head
    exact head

theorem ofString_append {path : Path} (spelled : path.Spelled) (rooted : path.anchor = .root)
    (below : path.parts ≠ []) (text : String) :
    ofString (path.toString ++ "/" ++ text) =
      { anchor := .root, parts := path.parts ++ partsOf text.toList } := by
  obtain ⟨anchor, parts⟩ := path
  subst rooted
  have letters : (toString ⟨.root, parts⟩ ++ "/" ++ text).toList =
      '/' :: (("/".intercalate parts).toList ++ '/' :: text.toList) := by
    simp [toString, Anchor.text]
  have parts_eq : partsOf (toString ⟨.root, parts⟩ ++ "/" ++ text).toList =
      parts ++ partsOf text.toList := by
    rw [letters, ← List.nil_append ('/' :: _), partsOf_append, partsOf_append,
      partsOf_intercalate spelled]
    rfl
  have anchor_eq : anchorOf (toString ⟨.root, parts⟩ ++ "/" ++ text).toList = .root := by
    rw [letters]
    have inner := anchorOf_intercalate_append below spelled ('/' :: text.toList)
    unfold anchorOf at inner ⊢
    split <;> simp_all
  rw [ofString, parts_eq, anchor_eq]

end Path

theorem isComponent_append_point {stem suffix : String} (given : stem ≠ "")
    (clear : '/' ∉ stem.toList) (plain : '/' ∉ suffix.toList) :
    IsComponent (stem ++ ("." ++ suffix)) := by
  have longer : 1 < (stem ++ ("." ++ suffix)).length := by
    have some : stem.length ≠ 0 := fun empty => given (String.length_eq_zero_iff.mp empty)
    have point : ".".length = 1 := rfl
    simp only [String.length_append]
    omega
  refine ⟨?_, ?_, by simp [clear, plain]⟩
  · intro same
    rw [same] at longer
    exact absurd longer (by decide)
  · intro same
    rw [same] at longer
    exact absurd longer (by decide)

theorem append_point_ne_up {stem suffix : String} (given : stem ≠ "") (notPoint : stem ≠ ".") :
    stem ++ ("." ++ suffix) ≠ ".." := by
  intro same
  have letters : stem.toList ++ '.' :: suffix.toList = ['.', '.'] := by
    simpa using congrArg String.toList same
  cases spelled : stem.toList with
  | nil => exact given (String.toList_eq_nil_iff.mp spelled)
  | cons first rest =>
    rw [spelled, List.cons_append] at letters
    obtain ⟨rfl, ended⟩ := List.cons.inj letters
    have length := congrArg List.length ended
    rw [List.length_append, List.length_cons, List.length_singleton] at length
    have none : rest = [] := List.eq_nil_of_length_eq_zero (by omega)
    exact notPoint (String.toList_inj.mp (by rw [spelled, none]; rfl))

-- With a suffix behind it, a way that goes up, or nowhere, leads to another depth than without.
theorem Location.length_steps_up {common : Location} (up : Location) (some : common ≠ [])
    {suffix : String} (plain : '/' ∉ suffix.toList) :
    (steps (common ++ up) (Path.partsOf
      ((⟨.here, List.replicate up.length ".."⟩ : Path).toString ++ ("." ++ suffix)).toList)).length ≠
      common.length := by
  intro lengths
  cases height : up.length with
  | zero =>
    -- The way is `.` then, and the suffix makes a name of it, or `..` if it is empty itself.
    have points : IsComponent ("." ++ ("." ++ suffix)) :=
      isComponent_append_point (by decide) (by decide) plain
    rw [height, List.replicate_zero] at lengths
    change (steps _ (Path.partsOf ("." ++ ("." ++ suffix)).toList)).length = _ at lengths
    rw [Path.partsOf_component points, List.eq_nil_of_length_eq_zero height, List.append_nil]
      at lengths
    have positive := List.length_pos_iff.mpr some
    by_cases up : "." ++ ("." ++ suffix) = ".."
    · rw [up, steps_cons, step_up, steps_nil, List.length_dropLast] at lengths
      omega
    · rw [steps_of_names (List.forall_mem_singleton.mpr up), List.length_append,
        List.length_singleton] at lengths
      omega
  | succ count =>
    -- The last `..` becomes a name, so the way goes up once less and then down.
    have points : IsComponent (".." ++ ("." ++ suffix)) :=
      isComponent_append_point (by decide) (by decide) plain
    have up : ".." ++ ("." ++ suffix) ≠ ".." := append_point_ne_up (by decide) (by decide)
    have spelled : ∀ part ∈ List.replicate count "..", IsComponent part := by
      intro part member
      rw [List.eq_of_mem_replicate member]
      decide
    rw [height, List.replicate_succ', Path.toString_here (by simp), intercalate_concat_append,
      Path.partsOf_intercalate_concat spelled, Path.partsOf_component points, steps_append,
      steps_replicate_up, steps_of_names (List.forall_mem_singleton.mpr up)] at lengths
    simp only [List.length_append, List.length_take, List.length_singleton] at lengths
    omega

namespace Layout

structure HasModule (layout : Layout) (moduleName : String) (root : Location)
    (names : LayoutNames) (directories : List String) (stem : String) : Prop where
  laidOut : layout = ofNames root.path names
  named : moduleName = "/".intercalate (directories ++ [stem])
  root : ∀ part ∈ root, IsName part
  relative : names.Relative
  modules : Path.partsOf names.modulesDir.toList ≠ []
  names : ∀ part ∈ directories ++ [stem], IsName part

namespace HasModule

variable {layout : Layout} {moduleName : String} {root : Location} {names : LayoutNames}
  {directories : List String} {stem : String}
  (held : HasModule layout moduleName root names directories stem)

include held

theorem directories_spelled : ∀ part ∈ directories, IsComponent part :=
  fun part member => (held.names part (List.mem_append_left _ member)).1

theorem modulesDir_eq : layout.modulesDir =
    { anchor := .root, parts := root ++ Path.partsOf names.modulesDir.toList } := by
  have relative : Path.anchorOf names.modulesDir.toList = .here := held.relative.output .modulesDir
  simp only [held.laidOut, ofNames, Path.div_of_relative relative, Location.path]

theorem binDir_eq : layout.binDir =
    { anchor := .root, parts := root ++ Path.partsOf names.binDir.toList } := by
  have relative : Path.anchorOf names.binDir.toList = .here := held.relative.output .binDir
  simp only [held.laidOut, ofNames, Path.div_of_relative relative, Location.path]

theorem div_name (base : Path) (more : String) :
    base / (moduleName ++ more) =
      { base with parts := base.parts ++ directories ++ Path.partsOf (stem ++ more).toList } := by
  have relative : Path.anchorOf (moduleName ++ more).toList = .here := by
    rw [held.named, String.toList_append]
    exact Path.anchorOf_intercalate_append (by simp)
      (fun part member => (held.names part member).1) _
  rw [Path.div_of_relative relative, held.named, intercalate_concat_append,
    Path.partsOf_intercalate_concat held.directories_spelled, List.append_assoc]

theorem modulePath_parent : (layout.modulePath moduleName).parent =
    { anchor := .root, parts := root ++ Path.partsOf names.modulesDir.toList ++ directories } := by
  have file : Path.partsOf (stem ++ ".ts").toList = [stem ++ ".ts"] :=
    Path.partsOf_component (isExtension_moduleSuffix.isName (held.names stem (by simp)).1.2.2).1
  rw [modulePath, held.div_name, file, held.modulesDir_eq, Path.parent]
  simp only [List.dropLast_concat]

theorem library_location :
    (layout.binDir / moduleName).location = layout.binDir.location ++ directories ++ [stem] := by
  have target := held.div_name layout.binDir ""
  rw [String.append_empty, String.append_empty,
    Path.partsOf_component (held.names stem (by simp)).1] at target
  rw [target, Path.location, List.append_assoc, Location.steps_append,
    Location.steps_of_names fun part member => (held.names part member).2, ← List.append_assoc]
  rfl

theorem artifactPath_eq (suffix : String) : layout.artifactPath moduleName suffix =
    { anchor := .root
      parts := layout.binDir.parts ++ directories ++
        Path.partsOf (stem ++ ("." ++ suffix)).toList } := by
  rw [artifactPath, String.append_assoc, held.div_name, held.binDir_eq]

theorem openedLibrary_eq (suffix : String) :
    Path.ofString (layout.openedLibrary moduleName suffix) =
      { anchor := .root
        parts := root ++ Path.partsOf names.modulesDir.toList ++ directories ++
          Path.partsOf (layout.libraryPath moduleName ++ ("." ++ suffix)).toList } := by
  have spelled : Path.Spelled
      ⟨.root, root ++ Path.partsOf names.modulesDir.toList ++ directories⟩ := by
    intro part member
    simp only [List.append_assoc, List.mem_append] at member
    rcases member with above | modules | below
    · exact (held.root part above).1
    · exact Path.mem_partsOf_isComponent modules
    · exact held.directories_spelled part below
  rw [openedLibrary, held.modulePath_parent,
    Path.ofString_append spelled rfl (by simp [held.modules]), String.append_assoc]

theorem steps_directories (start : Location) :
    start.steps directories = start ++ directories :=
  Location.steps_of_names fun part member => (held.names part (List.mem_append_left _ member)).2

theorem library_names : ∀ part ∈ layout.binDir.location ++ directories, IsName part := by
  intro part member
  rcases List.mem_append.mp member with above | below
  · have notUp : part ≠ ".." := by
      rintro rfl
      exact Location.notMem_steps List.not_mem_nil above
    rcases Location.mem_steps above with nothing | listed
    · cases nothing
    rw [held.binDir_eq] at listed
    rcases List.mem_append.mp listed with inRoot | inName
    · exact held.root part inRoot
    · exact ⟨Path.mem_partsOf_isComponent inName, notUp⟩
  · exact held.names part (List.mem_append_left _ below)

theorem openedLibrary_normal
    (reached : (layout.binDir / moduleName).location.covers
      (layout.modulePath moduleName).parent.location = false) (suffix : String) :
    (Path.ofString (layout.openedLibrary moduleName suffix)).normal =
      (layout.artifactPath moduleName suffix).normal := by
  rw [held.openedLibrary_eq, held.artifactPath_eq, libraryPath]
  rw [held.library_location, held.modulePath_parent] at reached ⊢
  generalize begins : (⟨.root, root ++ Path.partsOf names.modulesDir.toList ++ directories⟩ :
    Path).location = start at reached ⊢
  obtain ⟨common, up, down, rfl, target, relative, ends⟩ := Location.relativeParts_cases start
    (layout.binDir.location ++ directories ++ [stem])
  rcases List.eq_nil_or_concat down with none | ⟨init, last, rfl⟩
  · rw [ends.mp none] at reached
    cases reached
  -- The way goes down at last, and the last step down is the name of the module.
  rw [List.concat_eq_append, ← List.append_assoc] at relative target
  obtain ⟨directory, rfl⟩ := List.append_singleton_inj.mp target
  have down : ∀ part ∈ init, IsName part := by
    intro part member
    apply held.library_names
    rw [directory]
    exact List.mem_append_right _ member
  have spelled : ∀ part ∈ List.replicate up.length ".." ++ init, IsComponent part := by
    intro part member
    rcases List.mem_append.mp member with above | below
    · rw [List.eq_of_mem_replicate above]
      decide
    · exact (down part below).1
  have text : (Location.relativePath (common ++ up)
      (layout.binDir.location ++ directories ++ [stem])).toString =
      "/".intercalate (List.replicate up.length ".." ++ init ++ [stem]) := by
    rw [Location.relativePath, relative, Path.toString_here (by simp)]
  have back : Location.steps (common ++ up) (List.replicate up.length "..") = common := by
    rw [Location.steps_replicate_up]
    simp
  rw [text, intercalate_concat_append, Path.partsOf_intercalate_concat spelled]
  simp only [Path.normal, Path.location, Location.steps_append] at begins directory ⊢
  rw [begins, back, Location.steps_of_names fun part member => (down part member).2, ← directory,
    held.steps_directories]

theorem artifactPath_length {suffix : String} (plain : '/' ∉ suffix.toList) :
    (layout.artifactPath moduleName suffix).location.length =
      (layout.binDir / moduleName).location.length := by
  obtain ⟨⟨given, notPoint, clear⟩, -⟩ := held.names stem (by simp)
  rw [held.artifactPath_eq, held.library_location,
    Path.partsOf_component (isComponent_append_point given clear plain), Path.location,
    Location.steps_append, Location.steps_append, held.steps_directories,
    Location.steps_of_names (List.forall_mem_singleton.mpr (append_point_ne_up given notPoint))]
  simp [Path.location]

theorem openedLibrary_normal_ne
    (missed : (layout.binDir / moduleName).location.covers
      (layout.modulePath moduleName).parent.location = true) {suffix : String}
    (plain : '/' ∉ suffix.toList) :
    (Path.ofString (layout.openedLibrary moduleName suffix)).normal ≠
      (layout.artifactPath moduleName suffix).normal := by
  intro same
  -- The suffix does not change how deep the library is, so it is enough to compare the depths.
  have some : (layout.binDir / moduleName).location ≠ [] := by simp [held.library_location]
  have lengths := congrArg (fun path : Path => path.parts.length) same
  simp only [Path.normal, held.artifactPath_length plain] at lengths
  rw [held.openedLibrary_eq, libraryPath] at lengths
  rw [held.modulePath_parent] at missed lengths
  generalize (layout.binDir / moduleName).location = target at missed lengths some
  rw [Path.location, Location.steps_append] at lengths
  change (Location.steps (Path.location ⟨.root, _⟩) _).length = _ at lengths
  generalize (⟨.root, root ++ Path.partsOf names.modulesDir.toList ++ directories⟩ :
    Path).location = start at missed lengths
  obtain ⟨common, up, down, rfl, rfl, relative, ends⟩ := Location.relativeParts_cases start target
  obtain rfl := ends.mpr missed
  simp only [List.append_nil] at relative lengths some
  rw [Location.relativePath, relative] at lengths
  exact Location.length_steps_up up some plain lengths

end HasModule

end Layout

namespace Settings

variable {session : Session} {tree : Tree} {project : Path} {settings : Settings}

theorem straight_of_read {file root : Location} {bytes : Text.Bytes}
    (resolved : tree.resolve session.cwd (Location.path file.dropLast) = .ok root)
    (read : tree.readBytes session.cwd file.path = .ok bytes) :
    tree.Straight root ∧ ".." ∉ root := by
  obtain ⟨executable, status⟩ := Tree.readBytes_eq_ok.mp read
  obtain ⟨location, located, -⟩ := Tree.status_eq_ok.mp status
  obtain ⟨rest, whole⟩ := List.dropLast_prefix file
  have leads : Tree.Leads tree true linkLimit [] (file.dropLast ++ rest) location := by
    rw [whole]
    exact Tree.leads_of_walk located
  obtain ⟨directory, above, -⟩ := leads.split
  obtain rfl := Tree.resolve_eq_located resolved above.walk_eq
  exact above.straight (Tree.straight_nil tree) List.not_mem_nil

theorem load_named (accepted : load session tree project = .ok settings) (key : OutputKey) :
    Path.partsOf (key.valueIn settings.layout).toList ≠ [] := by
  obtain ⟨file, root, -, resolved, ⟨-, bytes, entries, read, -, made⟩ | ⟨-, rfl⟩⟩ :=
    load_cases accepted
  · intro none
    -- The root was resolved, so it resolves to itself: as an output it would be inside itself.
    obtain ⟨straight, clear⟩ := straight_of_read resolved read
    obtain ⟨relative, checked⟩ := ofEntries_layout made
    obtain ⟨source, -, -, outputs⟩ := checkLayout_places checked
    obtain ⟨target, found, inside, -⟩ := outputs key
    rw [placeOf, Except.mapError_eq_ok, Path.div_of_relative (relative.output key), none,
      List.append_nil] at found
    have same := Tree.eq_of_resolve_straight straight clear found
    exact (Location.strictlyCovers_iff.mp inside).2 same.symm
  · change Path.partsOf (key.valueIn {}).toList ≠ []
    cases key <;> decide

end Settings

/-- What the binding of a module opens is the library the compiler is told to write, unless the directory
of the binding is at or below the path of the library without its suffix. Then no suffix that is free of
slashes makes up for it. -/
theorem binding_opens_library {world : World} {project : Path} {settings : Settings}
    {layout : Layout} (accepted : Settings.load world.session world.tree project = .ok settings)
    (laidOut : (Generation.layoutOf project settings.layout).outcome world = .ok layout)
    (root : ∀ part ∈ layout.root.parts, IsName part) {moduleName : String}
    (path : IsNamePath moduleName) :
    ((layout.binDir / moduleName).location.covers
        (layout.modulePath moduleName).parent.location = false →
      ∀ suffix, (Path.ofString (layout.openedLibrary moduleName suffix)).normal =
        (layout.artifactPath moduleName suffix).normal) ∧
    ((layout.binDir / moduleName).location.covers
        (layout.modulePath moduleName).parent.location = true →
      ∀ suffix, '/' ∉ suffix.toList →
        (Path.ofString (layout.openedLibrary moduleName suffix)).normal ≠
          (layout.artifactPath moduleName suffix).normal) ∧
    ∀ (compiler : Compiler.Native) (source : SourceFile),
      (compiler.invocation layout source (layout.artifactPath moduleName compiler.suffix)).output? =
        some (layout.artifactPath moduleName compiler.suffix) := by
  obtain ⟨place, -, made, -⟩ := outcome_bind_eq_ok laidOut
  cases made
  obtain ⟨directories, stem, names, joined⟩ := path.exists_names
  have held : Layout.HasModule (Layout.ofNames place.path settings.layout) moduleName place
      settings.layout directories stem :=
    ⟨rfl, joined, root, Settings.load_relative accepted, Settings.load_named accepted .modulesDir,
      names⟩
  refine ⟨held.openedLibrary_normal, fun missed suffix => held.openedLibrary_normal_ne missed,
    fun compiler source => ?_⟩
  apply compiler.invocation_output?
  · rw [held.artifactPath_eq, held.binDir_eq]
    intro part member
    simp only [List.append_assoc, List.mem_append] at member
    rcases member with above | library | directory | name
    · exact (root part above).1
    · exact Path.mem_partsOf_isComponent library
    · exact held.directories_spelled part directory
    · exact Path.mem_partsOf_isComponent name
  · rw [held.artifactPath_eq]

theorem smallProject_opens_library :
    (Path.ofString ((Layout.ofNames (Location.path ["p"]) {}).openedLibrary "x/a" "so")).normal =
      Location.path ["p", "bin", "x", "a.so"] := by
  have path : IsNamePath "x/a" := by
    unfold IsNamePath
    decide
  have opened := (binding_opens_library smallProject_load
    (Generation.layoutOf_of_resolve smallProject_resolve _) (by decide) path).1 (by decide) "so"
  rw [opened]
  decide

theorem nestedModules_miss_library :
    ∃ settings, Settings.ofEntries smallProject.tree ["p"]
        [(.text "layout", .dict [(.text "modules_dir", .text "bin/a")])] = .ok settings ∧
      (Path.ofString ((Layout.ofNames (Location.path ["p"]) settings.layout).openedLibrary
        "a" "so")).normal ≠
      ((Layout.ofNames (Location.path ["p"]) settings.layout).artifactPath "a" "so").normal := by
  have place : ∀ location, smallProject.tree.Straight location → ".." ∉ location →
      location.any containsNul = false →
      (smallProject.tree.resolve ["p"] (Location.path location)).mapError SettingsError.file =
        .ok location := by
    intro location straight clear plain
    rw [Tree.resolve_self straight clear plain]
    rfl
  have source : placeOf smallProject.tree ["p"] "rs" = .ok ["p", "rs"] :=
    place ["p", "rs"] (by decide) (by decide) (by decide)
  have modules : placeOf smallProject.tree ["p"] "bin/a" = .ok ["p", "bin", "a"] :=
    place ["p", "bin", "a"] (by decide) (by decide) (by decide)
  have libraries : placeOf smallProject.tree ["p"] "bin" = .ok ["p", "bin"] :=
    place ["p", "bin"] (by decide) (by decide) (by decide)
  have index : placeOf smallProject.tree ["p"] "index.ts" = .ok ["p", "index.ts"] :=
    place ["p", "index.ts"] (by decide) (by decide) (by decide)
  have outputs : ∀ key : OutputKey,
      checkOutput smallProject.tree ["p"] ["p", "rs"] { modulesDir := "bin/a" } key = .ok () := by
    rintro (_ | _ | _)
    · rw [checkOutput, OutputKey.valueIn, modules]
      rfl
    · rw [checkOutput, OutputKey.valueIn, libraries]
      rfl
    · rw [checkOutput, OutputKey.valueIn, index]
      rfl
  have checked : checkLayout smallProject.tree ["p"] { modulesDir := "bin/a" } = .ok () := by
    rw [checkLayout, source]
    change OutputKey.all.forM (checkOutput smallProject.tree ["p"] ["p", "rs"] _) = _
    simp only [OutputKey.all, List.forM, outputs]
    rfl
  refine ⟨{ root := Location.path ["p"], layout := { modulesDir := "bin/a" } }, ?_, by decide⟩
  rw [Settings.ofEntries]
  change (checkLayout smallProject.tree ["p"] { modulesDir := "bin/a" } >>= _) = _
  rw [checked]
  rfl

end FfiBindings
