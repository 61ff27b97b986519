import FfiBindings.Proofs.Settings.Separation
import FfiBindings.Proofs.Tree.Resolution
import FfiBindings.Proofs.Utf8

set_option autoImplicit false

namespace FfiBindings.Settings

theorem fileFor_straight (session : Session) {tree : Tree} {root : Location}
    (straight : tree.Straight (root ++ [settingsFileName])) (clear : ".." ∉ root)
    (plain : root.any containsNul = false) (other : root.getLastD "" ≠ settingsFileName) :
    fileFor session tree root.path = .ok (root ++ [settingsFileName]) ∧
      tree.resolve session.cwd root.path = .ok root := by
  have noNul : containsNul settingsFileName = false := by decide
  have file : tree.resolve session.cwd (Location.path (root ++ [settingsFileName])) =
      .ok (root ++ [settingsFileName]) := by
    apply Tree.resolve_self straight
    · simpa [settingsFileName] using clear
    · simp [plain, noNul]
  refine ⟨?_, Tree.resolve_self (by simpa using straight.dropLast) clear plain _⟩
  have expanded : session.expandHome root.path = .ok root.path := rfl
  have differs : (root.path.name == settingsFileName) = false := by simpa [Path.name] using other
  simp only [fileFor, expanded, bind, Except.bind, differs]
  exact file

theorem load_standard {session : Session} {tree : Tree} {root : Location}
    (straight : tree.Straight (root ++ [settingsFileName])) (clear : ".." ∉ root)
    (plain : root.any containsNul = false) (other : root.getLastD "" ≠ settingsFileName)
    (absent : tree.pathExists session.cwd (Location.path (root ++ [settingsFileName])) =
      .ok false) :
    fileFor session tree root.path = .ok (root ++ [settingsFileName]) ∧
      load session tree root.path = .ok { root := root.path } := by
  obtain ⟨located, directory⟩ := fileFor_straight session straight clear plain other
  refine ⟨located, ?_⟩
  simp only [load, located, Except.mapError_ok, bind, Except.bind, List.dropLast_concat, directory,
    absent]
  rfl

theorem load_read {session : Session} {tree : Tree} {root : Location}
    (straight : tree.Straight (root ++ [settingsFileName])) (clear : ".." ∉ root)
    (plain : root.any containsNul = false) (other : root.getLastD "" ≠ settingsFileName)
    {bytes : Text.Bytes}
    (read : tree.readBytes session.cwd (Location.path (root ++ [settingsFileName])) = .ok bytes) :
    load session tree root.path = entriesOfBytes bytes >>= ofEntries tree root := by
  obtain ⟨located, directory⟩ := fileFor_straight session straight clear plain other
  obtain ⟨executable, status⟩ := Tree.readBytes_eq_ok.mp read
  have present : tree.pathExists session.cwd (Location.path (root ++ [settingsFileName])) =
      .ok true := Tree.pathExists_eq_true.mpr ⟨_, status⟩
  simp only [load, located, Except.mapError_ok, bind, Except.bind, List.dropLast_concat, directory,
    present, if_true, read]

-- What the entries say, wherever the places of their layout are.
def unchecked (root : Location) (entries : Value.Entries) : Except SettingsError Settings := do
  let compiler ← CompilerSettings.ofEntries (sectionOf entries "compiler")
  let aliasValue := (Value.get? (sectionOf entries "types") "aliases").getD .null
  let aliases ← (TypeAliases.ofValue aliasValue).mapError .aliasTarget
  return {
    root := root.path
    layout := LayoutNames.ofEntries (sectionOf entries "layout")
    parser := (givenText entries "parser").getD "regex"
    compiler
    aliases
    excludePaths := ((Value.get? entries "exclude_paths").map Value.texts).getD []
    templatesDir := (givenText entries "templates_dir").map fun name => root.path / name }

theorem ofEntries_eq (tree : Tree) (root : Location) (entries : Value.Entries) :
    ofEntries tree root entries =
      checkLayout tree root (LayoutNames.ofEntries (sectionOf entries "layout")) >>=
        fun _ => unchecked root entries := rfl

theorem layout_unchecked {root : Location} {entries : Value.Entries} {settings : Settings}
    (said : unchecked root entries = .ok settings) :
    LayoutNames.ofEntries (sectionOf entries "layout") = settings.layout := by
  obtain ⟨compiler, -, rest⟩ := Except.bind_eq_ok.mp said
  obtain ⟨aliases, -, made⟩ := Except.bind_eq_ok.mp rest
  cases made
  rfl

theorem load_text {session : Session} {tree : Tree} {root : Location} {text : List Char}
    {settings : Settings} (unlinked : tree.Unlinked) (clear : ".." ∉ root)
    (rooted : ∀ part ∈ root, containsNul part = false) (other : root.getLastD "" ≠ settingsFileName)
    (read : tree.readBytes session.cwd (Location.path (root ++ [settingsFileName])) =
      .ok (Text.Utf8.encode text))
    (said : entriesOfText (Text.unifyNewlines text) >>= unchecked root = .ok settings)
    (plain : settings.layout.Plain) (accepted : ¬settings.layout.Refused root) :
    load session tree root.path = .ok settings := by
  have checked := (checkLayout_eq_ok_iff unlinked rooted plain).mpr accepted
  obtain ⟨entries, understood, said⟩ := Except.bind_eq_ok.mp said
  rw [load_read (fun upper _ target => unlinked upper target) clear (by simpa using rooted) other
    read, entriesOfBytes, Text.Utf8.decode?_encode]
  dsimp only
  rw [understood, Except.ok_bind, ofEntries_eq, layout_unchecked said, checked, Except.ok_bind, said]

end FfiBindings.Settings
