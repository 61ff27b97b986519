import FfiBindings.Proofs.Generation.Frame
import FfiBindings.Proofs.Run.Yields
import FfiBindings.Proofs.Tree.Growth

set_option autoImplicit false

namespace FfiBindings

open ExceptT Run

namespace Generation

variable {session : Session} {before middle bound after : Tree} {parser : Extraction.SignatureParser}
  {layout : Layout} {aliases : TypeAliases} {source : SourceFile} {bytes : Text.Bytes}
  {progress : Progress} {bindings : BindingModule} {records : List Log.Record} {index : ExportIndex}

theorem yields_writeModule {target : Path} (named : layout.modulePath bindings.name = target)
    (directory : (Tree.makeDirectories session.cwd target.parent).outcome before = .ok () ∧
      (Tree.makeDirectories session.cwd target.parent).after before = middle)
    (written : (Tree.write session.cwd target (bindingText bindings.source
        (layout.libraryPath bindings.name) (bindings.functions aliases))).outcome middle = .ok () ∧
      (Tree.write session.cwd target (bindingText bindings.source
        (layout.libraryPath bindings.name) (bindings.functions aliases))).after middle = after) :
    Yields (Emission.writeModule ⟨layout, aliases, none⟩ bindings) session before target after := by
  subst named
  exact (yields_makeDirectories directory).bind <| (yields_pure _ _ _).bind <|
    (yields_write written).bind <| (yields_log _).bind (yields_pure _ _ _)

theorem yields_processSource (read : before.readBytes session.cwd source.path = .ok bytes)
    (exported : moduleOf? parser source bytes = some (bindings, records))
    {target : Path} (written : Yields (Emission.writeModule ⟨layout, aliases, none⟩ bindings) session
      before target after)
    (indexed : progress.index.add (layout.importPath bindings.name) bindings.functionNames =
      .ok index) :
    Yields (processSource ⟨layout, aliases, none⟩ parser progress source) session before
      { progress with modules := progress.modules ++ [bindings], index } after := by
  refine yields_cwd.bind ((yields_ask read).bind ?_)
  simp only [exported]
  refine (yields_logAll records).bind (written.bind ?_)
  have added : addToIndex layout bindings progress.index = pure index := by
    rw [addToIndex, indexed]
  rw [added]
  exact (yields_pure _ _ _).bind (yields_pure _ _ _)

theorem yields_processSource_skipped {emission : Emission}
    (read : before.readBytes session.cwd source.path = .ok bytes)
    (nothing : moduleOf? parser source bytes = none) :
    Yields (processSource emission parser progress source) session before
      { progress with skipped := progress.skipped ++ [source.relativePath] } before := by
  refine yields_cwd.bind ((yields_ask read).bind ?_)
  simp only [nothing]
  exact (yields_log _).bind (yields_pure _ _ _)

section Index

variable {typeFilter : Bool} {target : Path}

theorem yields_placeIndex {text : String} (named : layout.indexFile = target)
    (directory : (Tree.makeDirectories session.cwd target.parent).outcome before = .ok () ∧
      (Tree.makeDirectories session.cwd target.parent).after before = middle)
    (written : (Tree.write session.cwd target text).outcome middle = .ok () ∧
      (Tree.write session.cwd target text).after middle = after) :
    Yields (Emission.placeIndex ⟨layout, aliases, none⟩ index text) session before target after := by
  subst named
  exact (yields_makeDirectories directory).bind <| (yields_write written).bind <|
    (yields_log _).bind (yields_pure _ _ _)

theorem yields_indexText : Yields (Emission.indexText ⟨layout, aliases, none⟩ typeFilter index)
    session before (indexText index) before :=
  (yields_logAll _).bind (yields_pure _ _ _)

theorem yields_writeIndex (absent : before.pathExists session.cwd layout.indexFile = .ok false)
    (placed : Yields (Emission.placeIndex ⟨layout, aliases, none⟩ index (indexText index)) session
      before target after) :
    Yields (Emission.writeIndex ⟨layout, aliases, none⟩ typeFilter index) session before target
      after := by
  rw [Emission.writeIndex_eq]
  exact yields_indexText.bind ((yields_pathExists absent).bind placed)

theorem yields_writeIndex_over (present : before.pathExists session.cwd layout.indexFile = .ok true)
    (removed : (Tree.unlink session.cwd layout.indexFile).outcome before = .ok () ∧
      (Tree.unlink session.cwd layout.indexFile).after before = middle)
    (placed : Yields (Emission.placeIndex ⟨layout, aliases, none⟩ index (indexText index)) session
      middle target after) :
    Yields (Emission.writeIndex ⟨layout, aliases, none⟩ typeFilter index) session before target
      after := by
  rw [Emission.writeIndex_eq]
  exact yields_indexText.bind ((yields_pathExists present).bind ((yields_unlink removed).bind placed))

end Index

structure Accepted (session : Session) (tree : Tree) (directory : Path) (root : Location)
    (settings : Settings) (sources : List SourceFile) : Prop where
  resolved : session.resolve tree directory = .ok root
  settled : session.resolve tree root.path = .ok root
  project : tree.isDirectory session.cwd root.path = .ok true
  loaded : Settings.load session tree root.path = .ok settings
  sourced : tree.isDirectory session.cwd (Layout.ofNames root.path settings.layout).sourceDir =
    .ok true
  found : discover tree (Layout.ofNames root.path settings.layout).sourceDir settings.excludePaths =
    sources

theorem Accepted.of_regular {tree : Tree} (regular : tree.Regular) {root place : Location}
    {settings : Settings} {sources : List SourceFile}
    (project : tree.entry? root = some .directory)
    (loaded : Settings.load session tree root.path = .ok settings)
    (spelled : (Layout.ofNames root.path settings.layout).sourceDir = place.path)
    (sourced : tree.entry? place = some .directory)
    (listed : Discovery.unsorted tree place place.path settings.excludePaths = sources)
    (sorted : sources.Pairwise fun first second =>
      decide (first.relativePath ≤ second.relativePath) = true) :
    Accepted session tree root.path root settings sources := by
  have resolved : session.resolve tree root.path = .ok root := regular.resolve_held project _
  refine ⟨resolved, resolved, regular.isDirectory_held project _, loaded, ?_, ?_⟩
  · rw [spelled]
    exact regular.isDirectory_held sourced _
  · rw [spelled, discover, regular.locate_held sourced]
    simp only [listed]
    exact List.mergeSort_of_pairwise sorted

-- What a generation does once it has found its sources.
def produce (tools : Tools) (skipCompile : Bool) (settings : Settings) (layout : Layout)
    (sources : List SourceFile) : Run Report := do
  let artifacts ← artifactsOf tools settings skipCompile layout sources
  let parser ← findParser tools settings
  let emission : Emission :=
    { layout, aliases := settings.aliases, templatesDir := settings.templatesDir }
  Run.makeDirectories layout.modulesDir
  let progress ← processAll emission parser {} sources
  let index ← emission.writeIndex true progress.index
  Run.log (doneRecord progress.modules.length progress.skipped.length)
  return { layout, modules := progress.modules, skipped := progress.skipped, artifacts, index }

variable {tools : Tools} {skipCompile : Bool} {directory : Path} {root : Location}
  {settings : Settings} {sources : List SourceFile}

theorem ends_generate {ended : Except Failure Report}
    (accepted : Accepted session before directory root settings sources)
    (produced : Ends (produce tools skipCompile settings (Layout.ofNames root.path settings.layout)
      sources) session before ended after) :
    Ends (generate tools skipCompile directory) session before ended after := by
  have layout : Yields (layoutOf root.path settings.layout) session before
      (Layout.ofNames root.path settings.layout) before :=
    (yields_resolve accepted.settled).bind (yields_pure _ _ _)
  unfold generate
  refine (yields_resolve accepted.resolved).ends ?_
  refine (yields_isDirectory accepted.project).ends ?_
  refine (yields_loadSettings accepted.loaded).ends (layout.ends ?_)
  refine (yields_isDirectory accepted.sourced).ends ?_
  refine ends_get fun world bare => ?_
  simp only [bare.tree, accepted.found]
  exact (yields_log _).ends produced

theorem yields_produce {target directory : Path}
    (parsed : Yields (findParser tools settings) session before parser before)
    (modules : (Tree.makeDirectories session.cwd directory).outcome before = .ok () ∧
      (Tree.makeDirectories session.cwd directory).after before = middle)
    (named : layout.modulesDir = directory)
    (processed : Yields (processAll ⟨layout, settings.aliases, settings.templatesDir⟩ parser {} sources)
      session middle progress bound)
    (indexed : Yields
      (Emission.writeIndex ⟨layout, settings.aliases, settings.templatesDir⟩ true progress.index)
      session bound target after) :
    Yields (produce tools true settings layout sources) session before
      { layout, modules := progress.modules, skipped := progress.skipped, artifacts := [],
        index := target } after := by
  subst named
  exact (yields_pure [] _ _).bind <| parsed.bind <| (yields_makeDirectories modules).bind <|
    processed.bind <| indexed.bind <| (yields_log _).bind (yields_pure _ _ _)

end Generation

end FfiBindings
