import FfiBindings.Settings.Basic
import FfiBindings.Text.Newline
import FfiBindings.Tree.Change
import FfiBindings.Yaml.Document

set_option autoImplicit false

namespace FfiBindings

/-- Where a program runs: its current directory, and the home directories it knows of. The own one
has the empty name. -/
structure Session where
  cwd : Location
  homes : List (String × Location)
deriving DecidableEq, Repr

def Session.expandHome (session : Session) (path : Path) : Except FileError Path :=
  match path.anchor, path.parts with
  | .here, first :: rest =>
    match first.toList with
    | '~' :: name =>
      let user := String.ofList name
      if containsNul user then
        .error .nulInPath
      else
        match session.homes.lookup user with
        | some home => .ok { anchor := .root, parts := home ++ rest }
        | none => .error .noHome
    | _ => .ok path
  | _, _ => .ok path

def Session.resolve (session : Session) (tree : Tree) (path : Path) : Except FileError Location := do
  tree.resolve session.cwd (← session.expandHome path)

namespace LayoutNames

def stripSlashes (text : String) : String :=
  let inner := (text.toList.dropWhile (· == '/')).reverse.dropWhile (· == '/')
  String.ofList inner.reverse

def nameIn (entries : Value.Entries) (key standard : String) : String :=
  match (Value.get? entries key).bind Value.text? with
  | none => standard
  | some text => if text.isEmpty then standard else stripSlashes text

def ofEntries (entries : Value.Entries) : LayoutNames :=
  let standard : LayoutNames := {}
  { sourceDir := nameIn entries "source_dir" standard.sourceDir
    modulesDir := nameIn entries "modules_dir" standard.modulesDir
    binDir := nameIn entries "bin_dir" standard.binDir
    indexFile := nameIn entries "index_file" standard.indexFile }

end LayoutNames

def placeOf (tree : Tree) (root : Location) (name : String) : Except SettingsError Location :=
  (tree.resolve root (root.path / name)).mapError .file

def checkOutput (tree : Tree) (root source : Location) (names : LayoutNames) (key : OutputKey) :
    Except SettingsError Unit := do
  let name := key.valueIn names
  let target ← placeOf tree root name
  -- An output outside the project is reported as such, even if it holds the sources.
  if !root.strictlyCovers target then
    throw (.outputOutside key root.path name)
  if target.overlaps source then
    throw (.outputOverlaps key names.sourceDir name)

def checkLayout (tree : Tree) (root : Location) (names : LayoutNames) :
    Except SettingsError Unit := do
  let source ← placeOf tree root names.sourceDir
  if !root.strictlyCovers source then
    throw (.sourceOutside root.path names.sourceDir)
  OutputKey.all.forM (checkOutput tree root source names)

def givenText (entries : Value.Entries) (key : String) : Option String :=
  ((Value.get? entries key).bind Value.text?).filter fun text => !text.isEmpty

def CompilerSettings.ofEntries (entries : Value.Entries) : Except SettingsError CompilerSettings := do
  let standard : CompilerSettings := {}
  if entries.isEmpty then
    return standard
  let timeout ← match Value.get? entries "timeout" with
    | none => pure none
    | some value => value.number?.mapError .timeout
  return {
    enabled := ((Value.get? entries "enabled").bind Value.truth?).getD standard.enabled
    command := (givenText entries "command").getD standard.command
    arguments := ((Value.get? entries "args").map Value.texts).getD []
    timeout }

def sectionOf (entries : Value.Entries) (key : String) : Value.Entries :=
  ((Value.get? entries key).map Value.entries).getD []

namespace Settings

def ofEntries (tree : Tree) (root : Location) (entries : Value.Entries) :
    Except SettingsError Settings := do
  let layout := LayoutNames.ofEntries (sectionOf entries "layout")
  checkLayout tree root layout
  let compiler ← CompilerSettings.ofEntries (sectionOf entries "compiler")
  let aliasValue := (Value.get? (sectionOf entries "types") "aliases").getD .null
  let aliases ← (TypeAliases.ofValue aliasValue).mapError .aliasTarget
  return {
    root := root.path
    layout
    parser := (givenText entries "parser").getD "regex"
    compiler
    aliases
    excludePaths := ((Value.get? entries "exclude_paths").map Value.texts).getD []
    templatesDir := (givenText entries "templates_dir").map fun name => root.path / name }

def entriesOfText (text : List Char) : Except SettingsError Value.Entries :=
  if text.all Text.isBlank then
    .ok []
  else
    match Yaml.load text with
    | .error fault => .error (.document fault)
    | .ok (.dict entries) => .ok entries
    | .ok value => if value.isGiven then .error .noMapping else .ok []

def entriesOfBytes (bytes : Text.Bytes) : Except SettingsError Value.Entries :=
  match Text.Utf8.decode? bytes with
  | .error failure => .error (.encoding failure)
  | .ok text => entriesOfText (Text.unifyNewlines text)

-- The settings file for a path, which may name the file itself or the directory it is in.
def fileFor (session : Session) (tree : Tree) (path : Path) : Except FileError Location := do
  let path ← session.expandHome path
  if path.name == settingsFileName then
    -- A directory may carry the name of the settings file.
    if ← tree.isDirectory session.cwd path then
      tree.resolve session.cwd (path / settingsFileName)
    else
      tree.resolve session.cwd path
  else
    tree.resolve session.cwd (path / settingsFileName)

def load (session : Session) (tree : Tree) (path : Path) : Except SettingsError Settings := do
  let file ← (fileFor session tree path).mapError .file
  let root ← (tree.resolve session.cwd (Location.path file.dropLast)).mapError .file
  if ← (tree.pathExists session.cwd file.path).mapError .file then
    let bytes ← (tree.readBytes session.cwd file.path).mapError .file
    ofEntries tree root (← entriesOfBytes bytes)
  else
    return { root := root.path }

end Settings

end FfiBindings
