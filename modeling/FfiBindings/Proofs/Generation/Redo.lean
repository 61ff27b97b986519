import FfiBindings.Proofs.Cleanup
import FfiBindings.Proofs.Generation.Inputs
import FfiBindings.Proofs.Generation.Partition
import FfiBindings.Proofs.Run.Edits

set_option autoImplicit false

namespace FfiBindings

open ExceptT Run

variable {keep : Location → Bool} {final world : World} {path : Path}

structure Tree.Written (keep : Location → Bool) (tree : Tree) (path : Path) : Prop where
  proper : path.Proper
  above : tree.Inside path.parts.dropLast
  held : ∃ content executable, tree.entry? path.parts = some (.file content executable)
  outside : keep path.parts = false

namespace World.Spared

theorem silent (spared : Spared keep final world) (silent : final.Silent) : world.Silent :=
  fun place logged => silent place (spared.logs place logged)

theorem unlinked (spared : Spared keep final world) (unlinked : final.tree.Unlinked) :
    world.tree.Unlinked :=
  spared.tree.fits.unlinked unlinked

theorem log (spared : Spared keep final world) (silent : final.Silent) (record : Log.Record) :
    Spared keep final (world.log record) where
  session := (log_session world record).trans spared.session
  logs place logged := spared.logs place (logsTo_log.mp logged)
  tree := by
    rw [(spared.silent silent).log_tree record]
    exact spared.tree

theorem foldl_log (spared : Spared keep final world) (silent : final.Silent)
    (records : List Log.Record) : Spared keep final (records.foldl World.log world) := by
  induction records generalizing world with
  | nil => exact spared
  | cons record rest ih => exact ih (spared.log silent record)

theorem edited {files ways : Location → Prop} {tree : Tree} (spared : Spared keep final world)
    (edits : Tree.Edits files ways world.tree tree)
    (filed : ∀ place, files place → keep place = false ∧
      ∃ content executable, final.tree.entry? place = some (.file content executable))
    (laid : ∀ place, ways place → final.tree.entry? place = some .directory) :
    Spared keep final (world.withTree tree) := by
  apply spared.withTree
  constructor
  · exact edits.fits spared.tree.fits (fun place chosen => (filed place chosen).2) laid
  · apply IsTrans.trans _ _ _ spared.tree.same
    refine edits.sameAt (fun place chosen => (filed place chosen).1) fun place onWay kept => ?_
    -- A directory of the full tree among the places to keep was never taken away.
    rw [spared.tree.same.entry_eq kept, laid place onWay]
    simp

theorem edited_at {tree : Tree} (spared : Spared keep final world)
    (written : final.tree.Written keep path)
    (edits : Tree.Edits (· = path.parts) (fun _ => False) world.tree tree) :
    Spared keep final (world.withTree tree) := by
  refine spared.edited edits ?_ fun _ => False.elim
  rintro place rfl
  exact ⟨written.outside, written.held⟩

end World.Spared

namespace Run

theorem log_gives (silent : final.Silent) (record : Log.Record) :
    Gives (World.Spared keep final) (log record) () (World.Spared keep final) :=
  fun _ spared => ⟨rfl, spared.log silent record⟩

theorem logAll_gives (silent : final.Silent) (records : List Log.Record) :
    Gives (World.Spared keep final) (logAll records) () (World.Spared keep final) := by
  intro world spared
  rw [logAll_outcome, logAll_after]
  exact ⟨rfl, spared.foldl_log silent records⟩

variable (unlinked : final.tree.Unlinked)

include unlinked

theorem makeDirectories_gives (proper : path.Proper) (inside : final.tree.Inside path.parts) :
    Gives (World.Spared keep final) (makeDirectories path) ()
      (fun world => World.Spared keep final world ∧ world.tree.Inside path.parts) := by
  intro world spared
  obtain ⟨ended, made⟩ := @Tree.makeDirectories_fits world.tree final.tree world.session.cwd path
    unlinked spared.tree.fits proper inside
  rw [makeDirectories_outcome, makeDirectories_after, ended]
  refine ⟨rfl, ?_, made⟩
  have edits := @Tree.makeDirectories_edits (fun _ => False) world.tree (spared.unlinked unlinked)
    world.session.cwd path
  refine spared.edited edits (fun _ => False.elim) fun place onWay => ?_
  exact inside place (onWay.prefix_parts proper.rooted proper.clear)

omit unlinked in
theorem placeAt_of_proper (proper : path.Proper) (cwd : Location) :
    Tree.placeAt cwd path = path.parts := by
  rw [placeAt_of_isAbsolute _ proper.rooted, Path.location_of_clear proper.clear]

theorem write_gives (written : final.tree.Written keep path) (text : String) :
    Gives (fun world => World.Spared keep final world ∧ world.tree.Inside path.parts.dropLast)
      (write path text) () (World.Spared keep final) := by
  rintro world ⟨spared, above⟩
  obtain ⟨content, executable, held⟩ := written.held
  have ended := @Tree.write_fits world.tree final.tree world.session.cwd path unlinked
    spared.tree.fits written.proper above content executable held text
  rw [write_outcome, write_after, ended]
  refine ⟨rfl, spared.edited_at written ?_⟩
  exact Tree.write_edits (spared.unlinked unlinked) (placeAt_of_proper written.proper _) text

theorem unlink_gives (written : final.tree.Written keep path) :
    Gives (fun world => World.Spared keep final world ∧ (pathExists path).outcome world = .ok true)
      (unlink path) () (World.Spared keep final) := by
  rintro world ⟨spared, present⟩
  have noLinks := spared.unlinked unlinked
  rw [pathExists_outcome, Except.mapError_eq_ok] at present
  obtain ⟨entry, status⟩ := Tree.pathExists_eq_true.mp present
  have noDirectory : entry ≠ .directory := by
    rintro rfl
    obtain ⟨content, executable, held⟩ := written.held
    exact Tree.isDirectory_ne_true noLinks written.proper.rooted written.proper.clear
      spared.tree.fits held (Tree.isDirectory_eq_true.mpr status)
  have ended := Tree.unlink_of_status noLinks written.proper.rooted written.proper.clear status
    noDirectory
  rw [unlink_outcome, unlink_after, ended]
  refine ⟨rfl, spared.edited_at written ?_⟩
  exact Tree.unlink_edits noLinks (placeAt_of_proper written.proper _)

end Run

namespace Emission

variable {emission : Emission} {bindings : BindingModule} {index : ExportIndex}
  (unlinked : final.tree.Unlinked) (silent : final.Silent)

include unlinked silent

theorem writeModule_gives (standard : emission.templatesDir = none)
    (written : final.tree.Written keep (emission.layout.modulePath bindings.name)) :
    Gives (World.Spared keep final) (emission.writeModule bindings)
      (emission.layout.modulePath bindings.name) (World.Spared keep final) := by
  unfold writeModule
  refine (makeDirectories_gives unlinked written.proper.parent written.above).bind ?_
  rw [bindingText, standard]
  refine (gives_pure _ _).bind ((write_gives unlinked written _).bind ?_)
  exact (log_gives silent _).bind (gives_pure _ _)

theorem placeIndex_gives (written : final.tree.Written keep emission.layout.indexFile)
    (text : String) :
    Gives (World.Spared keep final) (emission.placeIndex index text) emission.layout.indexFile
      (World.Spared keep final) := by
  unfold placeIndex
  refine (makeDirectories_gives unlinked written.proper.parent written.above).bind ?_
  refine (write_gives unlinked written text).bind ?_
  exact (log_gives silent _).bind (gives_pure _ _)

theorem writeIndex_gives (standard : emission.templatesDir = none)
    (written : final.tree.Written keep emission.layout.indexFile) (typeFilter : Bool) :
    Gives (World.Spared keep final) (emission.writeIndex typeFilter index)
      emission.layout.indexFile (World.Spared keep final) := by
  have texts : Gives (World.Spared keep final) (emission.indexText typeFilter index)
      (FfiBindings.indexText index) (World.Spared keep final) := by
    rw [indexText, standard]
    exact (logAll_gives silent _).bind (gives_pure _ _)
  rw [writeIndex_eq]
  refine texts.bind ?_
  -- Whether there is an index depends on what is left; with or without one, it is put in place.
  refine gives_either (pathExists_after _) (fun world spared => ?_) fun present => ?_
  · obtain ⟨answer, asked⟩ := @Tree.leadsTo_of_short world.tree world.session.cwd _
      (spared.unlinked unlinked) written.proper.short fun _ => true
    exact ⟨answer, by rw [pathExists_outcome, Tree.pathExists, asked]; rfl⟩
  · have placed := @placeIndex_gives keep final emission index unlinked silent written
      (FfiBindings.indexText index)
    cases present with
    | false => exact fun world holds => placed world holds.1
    | true => exact (unlink_gives unlinked written).bind placed

end Emission

namespace Generation

variable {emission : Emission} {parser : Extraction.SignatureParser} {progress : Progress}
  {reading : Reading} {readings : List Reading}

theorem importPaths_foldl_extend (layout : Layout) (parser : Extraction.SignatureParser)
    (readings : List Reading) (progress : Progress) :
    (readings.foldl (Progress.extend layout parser) progress).index.importPaths =
      progress.index.importPaths ++ ((readings.filter (·.exportsAny parser)).map
        (·.bindings parser)).map (layout.importPath ·.name) := by
  rw [foldl_extend]
  simp [ExportIndex.importPaths, indexEntry]

structure Reading.Repeats (keep : Location → Bool) (final : World) (layout : Layout)
    (parser : Extraction.SignatureParser) (reading : Reading) : Prop where
  read : ∀ world, World.Spared keep final world →
    world.tree.readBytes world.session.cwd reading.source.path = .ok reading.bytes
  written : reading.exportsAny parser = true →
    final.tree.Written keep (layout.modulePath (reading.bindings parser).name)

variable (unlinked : final.tree.Unlinked) (silent : final.Silent)
  (standard : emission.templatesDir = none)

include unlinked silent standard

theorem processSource_gives (repeats : reading.Repeats keep final emission.layout parser)
    (fresh : reading.exportsAny parser = true →
      emission.layout.importPath (reading.bindings parser).name ∉ progress.index.importPaths) :
    Gives (World.Spared keep final) (processSource emission parser progress reading.source)
      (progress.extend emission.layout parser reading) (World.Spared keep final) := by
  have reads : Gives (World.Spared keep final)
      (ask fun tree => tree.readBytes final.session.cwd reading.source.path) reading.bytes
      (World.Spared keep final) := by
    refine gives_question (ask_after _) fun world spared => ?_
    rw [ask_outcome, ← spared.session, repeats.read world spared]
    rfl
  have stands : Gives (World.Spared keep final) cwd final.session.cwd (World.Spared keep final) :=
    gives_question cwd_after fun world spared => by rw [cwd_outcome, spared.session]
  unfold processSource
  refine stands.bind (reads.bind ?_)
  rcases moduleOf?_cases parser reading with ⟨nothing, none⟩ | ⟨something, records, found, -⟩
  · rw [none, Progress.extend, nothing]
    exact (log_gives silent _).bind (gives_pure _ _)
  · rw [found, Progress.extend, something]
    refine (logAll_gives silent records).bind ?_
    refine (Emission.writeModule_gives unlinked silent standard (repeats.written something)).bind ?_
    have added : progress.index.add
        (emission.layout.importPath (reading.bindings parser).name)
        (reading.bindings parser).functionNames =
        .ok { entries := progress.index.entries ++
          [indexEntry emission.layout (reading.bindings parser)] } := by
      rw [ExportIndex.add, ExportIndex.contains, if_neg]
      · rfl
      · simpa using fresh something
    unfold addToIndex
    rw [added]
    exact (gives_pure _ _).bind (gives_pure _ _)

theorem processAll_gives
    (repeats : ∀ reading ∈ readings, reading.Repeats keep final emission.layout parser)
    (distinct : (readings.foldl (Progress.extend emission.layout parser)
      progress).index.importPaths.Nodup) :
    Gives (World.Spared keep final)
      (processAll emission parser progress (readings.map (·.source)))
      (readings.foldl (Progress.extend emission.layout parser) progress)
      (World.Spared keep final) := by
  induction readings generalizing progress with
  | nil => exact gives_pure _ _
  | cons reading rest ih =>
    rw [List.forall_mem_cons] at repeats
    refine (processSource_gives unlinked silent standard repeats.1 fun something => ?_).bind
      (ih repeats.2 distinct)
    -- The specifiers of the whole fold are distinct, so this one was not there before its turn.
    rw [importPaths_foldl_extend, List.filter_cons, if_pos something, List.map_cons,
      List.map_cons, List.nodup_append] at distinct
    intro listed
    exact distinct.2.2 _ listed _ (by simp) rfl

end Generation

open Generation in
theorem generate_gives {tools : Tools} {directory : Path} {root : Location} {settings : Settings}
    {layout : Layout} {parser : Extraction.SignatureParser} {readings : List Reading}
    {last : Progress} (unlinked : final.tree.Unlinked) (silent : final.Silent)
    (standard : settings.templatesDir = none)
    (finds : ∀ world, World.Spared keep final world →
      Finds world directory root settings layout (readings.map (·.source)))
    (parsed : (findParser tools settings).outcome final = .ok parser)
    (proper : layout.modulesDir.Proper) (inside : final.tree.Inside layout.modulesDir.parts)
    (repeats : ∀ reading ∈ readings, reading.Repeats keep final layout parser)
    (last_eq : last = readings.foldl (Progress.extend layout parser) {})
    (distinct : last.index.importPaths.Nodup)
    (indexed : final.tree.Written keep layout.indexFile) :
    Gives (World.Spared keep final) (generate tools true directory)
      { layout
        modules := last.modules
        skipped := last.skipped
        artifacts := []
        index := layout.indexFile } (World.Spared keep final) := by
  have resolves : Gives (World.Spared keep final) (Run.resolve directory) root
      (World.Spared keep final) := by
    refine gives_question (resolve_after _) fun world spared => ?_
    rw [resolve_outcome, (finds world spared).resolved]
    rfl
  have project : Gives (World.Spared keep final) (Run.isDirectory root.path) true
      (World.Spared keep final) := by
    refine gives_question (isDirectory_after _) fun world spared => ?_
    rw [isDirectory_outcome, (finds world spared).project]
    rfl
  have loads : Gives (World.Spared keep final) (Run.loadSettings root.path) settings
      (World.Spared keep final) := by
    refine gives_question (loadSettings_after _) fun world spared => ?_
    rw [loadSettings_outcome, (finds world spared).accepted]
    rfl
  have laysOut : Gives (World.Spared keep final) (layoutOf root.path settings.layout) layout
      (World.Spared keep final) :=
    gives_question (layoutOf_after _ _) fun world spared => (finds world spared).laidOut
  have sourced : Gives (World.Spared keep final) (Run.isDirectory layout.sourceDir) true
      (World.Spared keep final) := by
    refine gives_question (isDirectory_after _) fun world spared => ?_
    rw [isDirectory_outcome, (finds world spared).sourced]
    rfl
  have parses : Gives (World.Spared keep final) (findParser tools settings) parser
      (World.Spared keep final) :=
    gives_question (findParser_after _ _) fun world _ => by
      rw [findParser_outcome tools settings world final, parsed]
  have makes : Gives (World.Spared keep final) (Run.makeDirectories layout.modulesDir) ()
      (World.Spared keep final) :=
    fun world spared =>
      let ⟨ended, left, _⟩ := makeDirectories_gives unlinked proper inside world spared
      ⟨ended, left⟩
  -- Each step of the run has its rule; what is left is to put them in a row.
  have processes := processAll_gives unlinked silent
    (show Emission.templatesDir ⟨layout, settings.aliases, settings.templatesDir⟩ = none from standard)
    repeats (last_eq ▸ distinct)
  rw [← last_eq] at processes
  unfold generate
  refine resolves.bind ?_
  refine project.bind ?_
  refine loads.bind ?_
  refine laysOut.bind ?_
  refine sourced.bind ?_
  refine gives_get fun world spared => ?_
  have found := (finds world spared).discovered
  simp only [← found]
  refine (log_gives silent _).bind ?_
  refine (gives_pure _ []).bind ?_
  refine parses.bind ?_
  refine makes.bind ?_
  refine processes.bind ?_
  refine (Emission.writeIndex_gives unlinked silent standard indexed true).bind ?_
  exact (log_gives silent _).bind (gives_pure _ _)

end FfiBindings
