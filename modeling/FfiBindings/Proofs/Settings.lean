import FfiBindings.Proofs.Tree.Operations
import FfiBindings.Settings.Load

set_option autoImplicit false

namespace FfiBindings

namespace LayoutNames

def place (root : Location) (name : String) : Location :=
  root.steps (Path.partsOf name.toList)

/-- How the four places of a layout stand to each other. -/
structure Separated (root : Location) (names : LayoutNames) : Prop where
  source_inside : root.strictlyCovers (place root names.sourceDir) = true
  output_inside : ∀ key : OutputKey, root.strictlyCovers (place root (key.valueIn names)) = true
  apart : ∀ key : OutputKey,
    (place root (key.valueIn names)).overlaps (place root names.sourceDir) = false

structure Relative (names : LayoutNames) : Prop where
  source : Path.anchorOf names.sourceDir.toList = .here
  output : ∀ key : OutputKey, Path.anchorOf (key.valueIn names).toList = .here

theorem stripSlashes_of_clear {text : String} (clear : '/' ∉ text.toList) :
    stripSlashes text = text := by
  have kept : ∀ letters : List Char, '/' ∉ letters → letters.dropWhile (· == '/') = letters := by
    rintro (_ | ⟨c, rest⟩) clear
    · rfl
    · rw [List.mem_cons, not_or] at clear
      exact List.dropWhile_cons_of_neg (by simpa using Ne.symm clear.1)
  rw [stripSlashes, kept _ clear, kept _ (by simpa using clear), List.reverse_reverse,
    String.ofList_toList]

theorem head_stripSlashes (text : String) : ∀ c ∈ (stripSlashes text).toList.head?, c ≠ '/' := by
  intro c head
  simp only [stripSlashes, String.toList_ofList] at head
  have begins : ((text.toList.dropWhile (· == '/')).reverse.dropWhile (· == '/')).reverse <+:
      (text.toList.dropWhile (· == '/')).reverse.reverse :=
    (List.dropWhile_suffix (· == '/')).reverse
  rw [List.reverse_reverse] at begins
  obtain ⟨rest, whole⟩ := begins
  cases letters : ((text.toList.dropWhile (· == '/')).reverse.dropWhile (· == '/')).reverse with
  | nil => simp [letters] at head
  | cons first others =>
    rw [letters] at head whole
    cases head
    have notSlash := List.head?_dropWhile_not (· == '/') text.toList
    rw [← whole] at notSlash
    simpa using notSlash

theorem anchorOf_nameIn (entries : Value.Entries) (key standard : String)
    (relative : Path.anchorOf standard.toList = .here) :
    Path.anchorOf (nameIn entries key standard).toList = .here := by
  unfold nameIn
  split
  · exact relative
  · split
    · exact relative
    · exact Path.anchorOf_of_head (head_stripSlashes _)

theorem relative_ofEntries (entries : Value.Entries) : (ofEntries entries).Relative where
  source := anchorOf_nameIn entries _ _ rfl
  output key := by cases key <;> exact anchorOf_nameIn entries _ _ rfl

theorem relative_standard : ({} : LayoutNames).Relative where
  source := rfl
  output key := by cases key <;> rfl

end LayoutNames

open LayoutNames

theorem placeOf_eq_ok {tree : Tree} (unlinked : tree.Unlinked) {root target : Location}
    {name : String} (clear : ".." ∉ root) (relative : Path.anchorOf name.toList = .here)
    (found : placeOf tree root name = .ok target) : target = place root name := by
  rw [placeOf, Except.mapError_eq_ok] at found
  have start : Tree.startOf (root.path / name) root = [] := by
    have rooted := Path.div_anchor root.path name (by simp)
    simp [Tree.startOf, Path.isAbsolute, rooted]
  rw [Tree.resolve_eq_steps unlinked found, start, Path.div_parts_of_relative relative,
    Location.steps_append]
  rw [Location.path_parts, Location.steps_of_names fun part member up => clear (up ▸ member)]
  rfl

theorem checkOutput_eq_ok {tree : Tree} {root source : Location} {names : LayoutNames}
    {key : OutputKey} (accepted : checkOutput tree root source names key = .ok ()) :
    ∃ target, placeOf tree root (key.valueIn names) = .ok target ∧
      root.strictlyCovers target = true ∧ target.overlaps source = false := by
  obtain ⟨target, found, checks⟩ := Except.bind_eq_ok.mp accepted
  refine ⟨target, found, ?_⟩
  cases inside : root.strictlyCovers target with
  | false =>
    rw [inside] at checks
    cases checks
  | true =>
    cases overlap : target.overlaps source with
    | false => exact ⟨rfl, rfl⟩
    | true =>
      rw [inside, overlap] at checks
      cases checks

theorem checkLayout_places {tree : Tree} {root : Location} {names : LayoutNames}
    (accepted : checkLayout tree root names = .ok ()) :
    ∃ source, placeOf tree root names.sourceDir = .ok source ∧
      root.strictlyCovers source = true ∧
      ∀ key : OutputKey, ∃ target, placeOf tree root (key.valueIn names) = .ok target ∧
        root.strictlyCovers target = true ∧ target.overlaps source = false := by
  obtain ⟨source, found, checks⟩ := Except.bind_eq_ok.mp accepted
  cases inside : root.strictlyCovers source with
  | false =>
    rw [inside] at checks
    cases checks
  | true =>
    rw [inside] at checks
    change (OutputKey.all.forM (checkOutput tree root source names)) = .ok () at checks
    obtain ⟨_, modulesOk, later⟩ := Except.bind_eq_ok.mp checks
    obtain ⟨_, binOk, last⟩ := Except.bind_eq_ok.mp later
    obtain ⟨_, indexOk, -⟩ := Except.bind_eq_ok.mp last
    refine ⟨source, found, inside, ?_⟩
    rintro (_ | _ | _)
    · exact checkOutput_eq_ok modulesOk
    · exact checkOutput_eq_ok binOk
    · exact checkOutput_eq_ok indexOk

theorem checkLayout_eq_ok {tree : Tree} (unlinked : tree.Unlinked) {root : Location}
    {names : LayoutNames} (clear : ".." ∉ root) (relative : names.Relative)
    (accepted : checkLayout tree root names = .ok ()) : Separated root names := by
  obtain ⟨source, found, inside, outputs⟩ := checkLayout_places accepted
  obtain rfl := placeOf_eq_ok unlinked clear relative.source found
  refine ⟨inside, fun key => ?_, fun key => ?_⟩
  all_goals
    obtain ⟨target, reached, outputInside, apart⟩ := outputs key
    obtain rfl := placeOf_eq_ok unlinked clear (relative.output key) reached
    assumption

theorem separated_standard (root : Location) : Separated root {} := by
  have below : ∀ name : String, Path.partsOf name.toList = [name] → name ≠ ".." →
      place root name = root ++ [name] := by
    intro name single notUp
    rw [place, single, Location.steps_of_names (by simpa using notUp)]
  have source := below "rs" rfl (by decide)
  have outputs : ∀ key : OutputKey,
      place root (key.valueIn {}) = root ++ [key.valueIn {}] ∧ key.valueIn {} ≠ "rs" := by
    rintro (_ | _ | _)
    · exact ⟨below "mod" rfl (by decide), by decide⟩
    · exact ⟨below "bin" rfl (by decide), by decide⟩
    · exact ⟨below "index.ts" rfl (by decide), by decide⟩
  refine ⟨?_, fun key => ?_, fun key => ?_⟩
  · change root.strictlyCovers (place root "rs") = true
    rw [source, Location.strictlyCovers_iff]
    simp
  · rw [(outputs key).1, Location.strictlyCovers_iff]
    simp
  · change (place root (key.valueIn {})).overlaps (place root "rs") = false
    rw [(outputs key).1, source]
    exact Location.overlaps_siblings root (outputs key).2

namespace Settings

theorem ofEntries_layout {tree : Tree} {root : Location} {entries : Value.Entries}
    {settings : Settings} (accepted : ofEntries tree root entries = .ok settings) :
    settings.layout.Relative ∧ checkLayout tree root settings.layout = .ok () := by
  obtain ⟨_, checked, later⟩ := Except.bind_eq_ok.mp accepted
  obtain ⟨compiler, -, later⟩ := Except.bind_eq_ok.mp later
  obtain ⟨aliases, -, result⟩ := Except.bind_eq_ok.mp later
  cases result
  exact ⟨relative_ofEntries _, checked⟩

theorem load_cases {session : Session} {tree : Tree} {path : Path} {settings : Settings}
    (accepted : load session tree path = .ok settings) :
    ∃ file root, fileFor session tree path = .ok file ∧
      tree.resolve session.cwd (Location.path file.dropLast) = .ok root ∧
      ((tree.pathExists session.cwd file.path = .ok true ∧
          ∃ bytes entries, tree.readBytes session.cwd file.path = .ok bytes ∧
            entriesOfBytes bytes = .ok entries ∧ ofEntries tree root entries = .ok settings) ∨
        (tree.pathExists session.cwd file.path = .ok false ∧
          settings = { root := root.path })) := by
  obtain ⟨file, located, later⟩ := Except.bind_eq_ok.mp accepted
  obtain ⟨root, resolved, later⟩ := Except.bind_eq_ok.mp later
  obtain ⟨present, asked, later⟩ := Except.bind_eq_ok.mp later
  rw [Except.mapError_eq_ok] at located resolved asked
  refine ⟨file, root, located, resolved, ?_⟩
  cases present with
  | true =>
    obtain ⟨bytes, read, later⟩ := Except.bind_eq_ok.mp later
    obtain ⟨entries, understood, made⟩ := Except.bind_eq_ok.mp later
    rw [Except.mapError_eq_ok] at read
    exact .inl ⟨asked, bytes, entries, read, understood, made⟩
  | false => exact .inr ⟨asked, (Except.ok.inj later).symm⟩

theorem load_relative {session : Session} {tree : Tree} {path : Path} {settings : Settings}
    (accepted : load session tree path = .ok settings) : settings.layout.Relative := by
  obtain ⟨file, root, -, -, ⟨-, bytes, entries, -, -, made⟩ | ⟨-, rfl⟩⟩ := load_cases accepted
  · exact (ofEntries_layout made).1
  · exact relative_standard

theorem fileFor_cases {session : Session} {tree : Tree} (unlinked : tree.Unlinked)
    {start file : Location} (found : fileFor session tree start.path = .ok file) :
    file = Location.steps [] start ++ [settingsFileName] ∨ file = Location.steps [] start := by
  have rooted : Tree.startOf start.path session.cwd = [] := rfl
  have beside : ∀ {place : Location},
      tree.resolve session.cwd (start.path / settingsFileName) = .ok place →
      place = Location.steps [] start ++ [settingsFileName] := by
    intro place resolved
    have parts : (start.path / settingsFileName).parts = start ++ [settingsFileName] := rfl
    have name : settingsFileName ≠ ".." := by decide
    rw [Tree.resolve_eq_steps unlinked resolved, parts, Location.steps_append, Location.steps_cons,
      Location.step_down name]
    rfl
  obtain ⟨path, expanded, located⟩ := Except.bind_eq_ok.mp found
  cases expanded
  split at located
  · obtain ⟨directory, -, located⟩ := Except.bind_eq_ok.mp located
    cases directory with
    | true => exact .inl (beside located)
    | false =>
      have itself := Tree.resolve_eq_steps unlinked located
      exact .inr itself
  · exact .inl (beside located)

theorem load_separated {session : Session} {tree : Tree} (unlinked : tree.Unlinked)
    {start : Location} {settings : Settings}
    (accepted : load session tree start.path = .ok settings) :
    Separated (Location.steps [] start) settings.layout ∨
      ((∃ root, Separated root settings.layout) ∧
        tree.isDirectory session.cwd (Location.path (Location.steps [] start)) ≠ .ok true) := by
  obtain ⟨file, root, located, resolved, read⟩ := load_cases accepted
  have root_eq : root = Location.steps [] file.dropLast := Tree.resolve_eq_steps unlinked resolved
  have clear : ".." ∉ root := by
    rw [root_eq]
    exact Location.notMem_steps List.not_mem_nil
  -- The names are checked against the directory of the file; what stands there was read or absent.
  have checked : Separated root settings.layout ∧
      tree.isDirectory session.cwd file.path ≠ .ok true := by
    rcases read with ⟨-, bytes, entries, read, -, made⟩ | ⟨absent, rfl⟩
    · obtain ⟨relative, valid⟩ := ofEntries_layout made
      refine ⟨checkLayout_eq_ok unlinked clear relative valid, ?_⟩
      obtain ⟨executable, status⟩ := Tree.readBytes_eq_ok.mp read
      simp [Tree.isDirectory_eq_true, status]
    · refine ⟨separated_standard root, fun directory => ?_⟩
      have found := Tree.pathExists_of_isDirectory directory
      rw [absent] at found
      cases found
  obtain ⟨separated, noDirectory⟩ := checked
  -- The file is in the project directory, or the path names the file and is no directory.
  rcases fileFor_cases unlinked located with rfl | rfl
  · rw [List.dropLast_concat, Location.steps_steps_nil] at root_eq
    exact .inl (root_eq ▸ separated)
  · exact .inr ⟨⟨root, separated⟩, noDirectory⟩

end Settings

end FfiBindings
