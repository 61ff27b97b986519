import FfiBindings.Proofs.Generation.Again
import FfiBindings.Proofs.Library
import FfiBindings.Proofs.Tree.Growth

set_option autoImplicit false

namespace FfiBindings

open ExceptT

/-- Modules whose outputs can stand side by side: the index tells them apart, and none has its file
where another needs a directory. -/
structure Layout.Compatible (layout : Layout) (modules : List BindingModule) : Prop where
  indexed : (modules.map (layout.importPath ·.name)).Nodup
  apart : ∀ upper ∈ modules, ∀ lower ∈ modules,
    (layout.modulePath upper.name).location.strictlyCovers
      (layout.modulePath lower.name).location = false

/-- A module name that is a path of names, without a directory that is named like the file of a
binding. -/
structure IsPlainName (moduleName : String) : Prop where
  names : IsNamePath moduleName
  directories : ∀ piece ∈ (Text.splitAt '/' moduleName.toList).dropLast, ¬ ".ts".toList <:+ piece

theorem LayoutNames.downward_standard : LayoutNames.Downward {} :=
  ⟨by decide, by rintro (_ | _ | _) <;> decide⟩

def standardLayout (root : Location) : Layout := Layout.ofNames root.path {}

theorem modulesDir_div (root : Location) {parts : List String}
    (names : ∀ part ∈ parts, IsName part) :
    (standardLayout root).modulesDir / "/".intercalate parts =
      Location.path (root ++ "mod" :: parts) := by
  have read := Path.ofString_intercalate fun part member => (names part member).1
  have spelled : Path.partsOf ("/".intercalate parts).toList = parts := congrArg Path.parts read
  rw [Path.div_of_relative (congrArg Path.anchor read), spelled, List.append_cons]
  rfl

theorem modulePath_standard (root : Location) {directories : List String} {stem : String}
    (names : ∀ part ∈ directories, IsName part) (clear : '/' ∉ stem.toList) :
    (standardLayout root).modulePath ("/".intercalate (directories ++ [stem])) =
      Location.path (root ++ "mod" :: (directories ++ [stem ++ ".ts"])) := by
  rw [Layout.modulePath, intercalate_concat_append]
  apply modulesDir_div
  rw [List.forall_mem_append, List.forall_mem_singleton]
  exact ⟨names, isExtension_moduleSuffix.isName clear⟩

theorem importPath_standard {root : Location} (clear : ".." ∉ root) {parts : List String}
    (names : ∀ part ∈ parts, IsName part) (nonempty : parts ≠ []) :
    (standardLayout root).importPath ("/".intercalate parts) =
      "./mod/" ++ "/".intercalate parts := by
  have start : (standardLayout root).indexFile.parent.location = root := by
    change Path.location ⟨.root, (root ++ ["index.ts"]).dropLast⟩ = root
    rw [List.dropLast_concat, Path.location_of_clear clear]
  have target : ((standardLayout root).modulesDir / "/".intercalate parts).location =
      root ++ "mod" :: parts := by
    rw [modulesDir_div root names, Path.location_of_clear, Location.path_parts]
    rw [Location.path_parts, List.mem_append, List.mem_cons]
    rintro (above | up | inner)
    · exact clear above
    · exact absurd up (by decide)
    · exact (names _ inner).2 rfl
  have joined : "/".intercalate ("mod" :: parts) = "mod/" ++ "/".intercalate parts := by
    rw [String.intercalate_cons_of_ne_nil nonempty]
    rfl
  have inside : ("mod/" ++ "/".intercalate parts).startsWith "../" = false := by simp
  simp only [Layout.importPath, start, target, Location.relativePath,
    Location.relativeParts_append]
  rw [Path.toString_here (by simp), joined, inside, if_neg Bool.false_ne_true,
    ← String.append_assoc]
  rfl

theorem isAccepted_module {stem : String} (accepted : IsAccepted (stem ++ sourceSuffix))
    (clear : '/' ∉ stem.toList) : IsAccepted (stem ++ ".ts") where
  down := (isExtension_moduleSuffix.isName clear).2
  plain := by
    have plain := accepted.plain
    simp only [containsNul, String.toList_append, List.contains_append, Bool.or_eq_false_iff]
      at plain ⊢
    exact ⟨plain.1, by decide⟩
  short := by
    have short := accepted.short
    rw [String.utf8ByteSize_append] at short ⊢
    exact short

namespace Generation

def Reading.of (tree : Tree) (source : SourceFile) : Reading :=
  { source
    bytes := match tree.entry? source.path.parts with
      | some (.file content _) => content
      | _ => [] }

section Standard

variable (tree : Tree) (root : Location) (parser : Extraction.SignatureParser)

def standardSources : List SourceFile :=
  discover tree (standardLayout root).sourceDir []

def standardReadings : List Reading :=
  (standardSources tree root).map (Reading.of tree)

def standardModules : List BindingModule :=
  ((standardReadings tree root).filter (·.exportsAny parser)).map (·.bindings parser)

theorem names_sublist :
    ((standardModules tree root parser).map (·.name)).Sublist
      ((standardSources tree root).map (·.moduleName)) := by
  have whole : (standardSources tree root).map (·.moduleName) =
      (standardReadings tree root).map (·.source.moduleName) := by
    rw [standardReadings, List.map_map]
    rfl
  have named : (standardModules tree root parser).map (·.name) =
      ((standardReadings tree root).filter (·.exportsAny parser)).map (·.source.moduleName) := by
    rw [standardModules, List.map_map]
    rfl
  rw [whole, named]
  exact List.filter_sublist.map _

variable {tree root parser}

theorem exists_source {bindings : BindingModule}
    (member : bindings ∈ standardModules tree root parser) :
    ∃ source ∈ standardSources tree root, source.moduleName = bindings.name :=
  List.mem_map.mp ((names_sublist tree root parser).subset (List.mem_map_of_mem member))

end Standard

/-- A project without links in which nothing has been generated or set. -/
structure Fresh (world : World) (directory : Path) (root : Location) : Prop where
  unlinked : world.tree.Unlinked
  named : world.Named
  sound : world.tree.Sound
  silent : world.Silent
  resolved : world.session.resolve world.tree directory = .ok root
  sources : world.tree.entry? (root ++ ["rs"]) = some .directory
  unset : world.tree.entry? (root ++ [settingsFileName]) = none
  noModules : world.tree.entry? (root ++ ["mod"]) = none
  noIndex : world.tree.entry? (root ++ ["index.ts"]) = none

def outputWays (layout : Layout) (modules : List BindingModule) : List Location :=
  layout.modulesDir.parts.inits ++
    (layout.files modules).flatMap fun path => path.parts.dropLast.inits

theorem mem_outputWays {layout : Layout} {modules : List BindingModule} {place : Location} :
    place ∈ outputWays layout modules ↔ place <+: layout.modulesDir.parts ∨
      ∃ path ∈ layout.files modules, place <+: path.parts.dropLast := by
  simp only [outputWays, List.mem_append, List.mem_inits, List.mem_flatMap]

def grown (world : World) (root : Location) (parser : Extraction.SignatureParser) : World :=
  let modules := standardModules world.tree root parser
  world.withTree (world.tree.grown (outputWays (standardLayout root) modules)
    (((standardLayout root).files modules).map (·.parts)))

namespace Fresh

variable {world : World} {directory : Path} {root : Location} {source : SourceFile}
  (fresh : Fresh world directory root)

include fresh

theorem present : world.tree.entry? root = some .directory := by
  have above := fresh.sound.above fresh.sources
  rw [List.dropLast_concat] at above
  exact above root List.prefix_rfl

theorem proper {below : Location} (names : ∀ part ∈ below, IsAccepted part) :
    (Location.path (root ++ below)).Proper := by
  rw [Location.proper_iff, List.forall_mem_append]
  exact ⟨Location.proper_iff.mp (fresh.sound.proper fresh.present), names⟩

theorem isDirectory {location : Location}
    (held : world.tree.entry? location = some .directory) (cwd : Location) :
    world.tree.isDirectory cwd location.path = .ok true :=
  Tree.isDirectory_of_located (fresh.sound.locate_self fresh.unlinked held cwd true) held

theorem resolves {location : Location} (proper : location.path.Proper) (cwd : Location) :
    world.tree.resolve cwd location.path = .ok location :=
  Tree.resolve_self (fun upper _ target => fresh.unlinked upper target) proper.clear proper.plain
    cwd

theorem loaded :
    Settings.load world.session world.tree root.path = .ok { root := root.path } := by
  have properFile : (Location.path (root ++ [settingsFileName])).Proper :=
    fresh.proper (by decide)
  have file : Settings.fileFor world.session world.tree root.path =
      .ok (root ++ [settingsFileName]) := by
    rw [Settings.fileFor_of_directory (fresh.isDirectory fresh.present _)]
    exact fresh.resolves properFile _
  have located : world.tree.locate world.session.cwd true
      (Location.path (root ++ [settingsFileName])) = .ok (root ++ [settingsFileName]) := by
    apply Tree.locate_proper properFile fresh.unlinked
    rw [Location.path_parts, List.dropLast_concat]
    exact fresh.sound.inside fresh.present
  have absent := Tree.pathExists_of_free located fresh.unset
  have resolved := fresh.resolves (fresh.sound.proper fresh.present) world.session.cwd
  simp only [Settings.load, file, Except.mapError_ok, bind, Except.bind, List.dropLast_concat,
    resolved, absent]
  rfl

theorem repeatable : Repeatable world directory root { root := root.path } (standardLayout root)
    (standardSources world.tree root) where
  resolved := fresh.resolved
  project := fresh.isDirectory fresh.present _
  accepted := fresh.loaded
  laidOut := by
    apply layoutOf_of_resolve
    exact fresh.resolves (fresh.sound.proper fresh.present) _
  sourced := fresh.isDirectory fresh.sources _
  discovered := rfl
  unlinked := fresh.unlinked
  named := fresh.named
  silent := fresh.silent
  standard := rfl
  downward := LayoutNames.downward_standard
  spared present := absurd fresh.unset present

theorem placed (member : source ∈ standardSources world.tree root) :
    ∃ directories stem content executable,
      (∀ part ∈ directories, IsName part) ∧ '/' ∉ stem.toList ∧
      source.moduleName = "/".intercalate (directories ++ [stem]) ∧
      source.path = Location.path (root ++ ["rs"] ++ (directories ++ [stem ++ sourceSuffix])) ∧
      world.tree.entry? source.path.parts = some (.file content executable) := by
  obtain ⟨start, location, entry, located, listed, inside, isFile, taken⟩ :=
    taken_of_mem_discover member
  obtain rfl : start = root ++ ["rs"] := Except.ok.inj (located.symm.trans
    (fresh.sound.locate_self fresh.unlinked fresh.sources [] true))
  obtain ⟨⟨below, rfl⟩, further⟩ := Location.strictlyCovers_iff.mp inside
  rw [List.drop_left] at taken
  obtain ⟨path, relative, suffixed⟩ := source?_eq_some taken
  have names := fresh.named.tree _ listed
  rw [List.forall_mem_append] at names
  have nonempty : below ≠ [] := by
    rintro rfl
    simp at further
  obtain ⟨directories, stem, inner, clear, joined, rfl⟩ :=
    exists_stem names.2 nonempty (relative.symm.trans suffixed)
  have held := fresh.sound.entry_eq (by simp) listed
  change source.path = Location.path (root ++ ["rs"] ++ (directories ++ [stem ++ sourceSuffix]))
    at path
  cases entry with
  | directory => cases isFile
  | link target => exact absurd held (fresh.unlinked _ target)
  | file content executable =>
    exact ⟨directories, stem, content, executable, inner, clear, joined, path, path ▸ held⟩

theorem reads (member : source ∈ standardSources world.tree root) :
    world.tree.readBytes world.session.cwd source.path =
      .ok (Reading.of world.tree source).bytes := by
  obtain ⟨directories, stem, content, executable, -, -, -, path, held⟩ := fresh.placed member
  rw [path, Location.path_parts] at held
  have located := fresh.sound.locate_self fresh.unlinked held world.session.cwd true
  rw [Reading.of, path, Location.path_parts, held]
  exact Tree.readBytes_eq_ok.mpr ⟨executable, Tree.status_eq_ok.mpr ⟨_, located, held⟩⟩

theorem modulePath (member : source ∈ standardSources world.tree root) :
    ((standardLayout root).modulePath source.moduleName).Proper ∧
      (root ++ ["mod"]).strictlyCovers
        ((standardLayout root).modulePath source.moduleName).parts = true := by
  obtain ⟨directories, stem, content, executable, names, clear, joined, path, held⟩ :=
    fresh.placed member
  have accepted := Location.proper_iff.mp (fresh.sound.proper held)
  rw [path, Location.path_parts, List.forall_mem_append, List.forall_mem_append,
    List.forall_mem_append, List.forall_mem_singleton, List.forall_mem_singleton] at accepted
  rw [joined, modulePath_standard root names clear]
  constructor
  · apply fresh.proper
    rw [List.forall_mem_cons, List.forall_mem_append, List.forall_mem_singleton]
    exact ⟨by decide, accepted.2.1, isAccepted_module accepted.2.2 clear⟩
  · rw [Location.path_parts, List.append_cons root "mod" (directories ++ _),
      Location.strictlyCovers_iff]
    exact ⟨List.prefix_append _ _, by simp⟩

section Outputs

variable {tools : Tools} {parser : Extraction.SignatureParser} {bindings : BindingModule}
  {path : Path} {report : Report}

theorem moduleOf (member : bindings ∈ standardModules world.tree root parser) :
    ((standardLayout root).modulePath bindings.name).Proper ∧
      (root ++ ["mod"]).strictlyCovers
        ((standardLayout root).modulePath bindings.name).parts = true := by
  obtain ⟨source, found, same⟩ := exists_source member
  exact same ▸ fresh.modulePath found

theorem compatible (returned : (generate tools true directory).outcome world = .ok report)
    (parsed : (findParser tools { root := root.path }).outcome world = .ok parser) :
    (standardLayout root).Compatible (standardModules world.tree root parser) := by
  have project := fresh.repeatable
  obtain ⟨found, readings, done⟩ := generate_done project.toFinds fresh.unlinked fresh.silent
    project.direct project.sourceNames project.standard returned rfl
  obtain rfl : found = parser := Except.ok.inj (done.parsed.symm.trans parsed)
  -- What was read in the course of the generation is what was there at the start.
  have each : ∀ reading ∈ readings, Reading.of world.tree reading.source = reading := by
    intro reading member
    have found := done.listed ▸ List.mem_map_of_mem member
    obtain ⟨rooted, clear, kept⟩ := project.sourcePath found
    have later := (project.repeats done member).read _ (World.spared_self _ _)
    rw [done.edits.session fresh.unlinked,
      (project.sameInputs done).readBytes fresh.unlinked rooted clear kept, fresh.reads found]
      at later
    exact congrArg (Reading.mk reading.source) (Except.ok.inj later)
  have read : standardReadings world.tree root = readings := by
    rw [standardReadings, ← done.listed, List.map_map]
    exact (List.map_congr_left each).trans (List.map_id _)
  have modules : report.modules = standardModules world.tree root found := by
    rw [done.reported, standardModules, read, foldl_extend]
    rfl
  have placed := fun bindings (member : bindings ∈ standardModules world.tree root found) =>
    done.placed (done.edits.unlinked fresh.unlinked) project.direct (project.moduleNames done)
      (Layout.mem_files_of_mem (modules ▸ member))
  constructor
  · have distinct := done.distinct
    rw [importPaths_foldl_extend, ← read] at distinct
    exact distinct
  · intro upper above lower below
    obtain ⟨proper, -, content, executable, held⟩ := placed upper above
    obtain ⟨properBelow, inside, -⟩ := placed lower below
    have nonempty : ((standardLayout root).modulePath lower.name).parts ≠ [] := by
      intro empty
      have further := (fresh.moduleOf below).2
      rw [empty] at further
      simp [Location.strictlyCovers_iff] at further
    rw [Path.location_of_clear proper.clear, Path.location_of_clear properBelow.clear,
      Bool.eq_false_iff, ne_eq, Location.strictlyCovers_iff_dropLast nonempty]
    intro begins
    cases held.symm.trans (inside _ begins)

theorem output
    (file : path ∈ (standardLayout root).files (standardModules world.tree root parser)) :
    path.Proper ∧ ∃ output ∈ (standardLayout root).outputs, ∃ name, output.parts = root ++ [name] ∧
      world.tree.entry? (root ++ [name]) = none ∧ root ++ [name] <+: path.parts ∧
      ¬ path.parts <+: root ++ ["mod"] := by
  rcases List.mem_cons.mp file with rfl | module
  · refine ⟨fresh.proper (by decide), (standardLayout root).indexFile, by simp [Layout.outputs],
      "index.ts", rfl, fresh.noIndex, List.prefix_rfl, fun above => ?_⟩
    exact Location.not_siblings_above (by decide) above List.prefix_rfl
  · obtain ⟨bindings, member, rfl⟩ := List.mem_map.mp module
    obtain ⟨proper, inside⟩ := fresh.moduleOf member
    obtain ⟨below, different⟩ := Location.strictlyCovers_iff.mp inside
    refine ⟨proper, (standardLayout root).modulesDir, by simp [Layout.outputs], "mod", rfl,
      fresh.noModules, below, fun above => ?_⟩
    exact different (below.eq_of_length_le above.length_le)

theorem apart
    (compatible : (standardLayout root).Compatible (standardModules world.tree root parser))
    {upper lower : Path}
    (above : upper ∈ (standardLayout root).files (standardModules world.tree root parser))
    (below : lower ∈ (standardLayout root).files (standardModules world.tree root parser)) :
    Location.strictlyCovers upper.parts lower.parts = false := by
  rw [Bool.eq_false_iff]
  intro covers
  have onWay := (Location.strictlyCovers_iff.mp covers).1
  have within := fun bindings (member : bindings ∈ standardModules world.tree root parser) =>
    (Location.strictlyCovers_iff.mp (fresh.moduleOf member).2).1
  -- The index is beside the modules, and two modules are compatible.
  rcases List.mem_cons.mp above with rfl | module <;> rcases List.mem_cons.mp below with rfl | other
  · simp [Location.strictlyCovers_iff] at covers
  · obtain ⟨bindings, member, rfl⟩ := List.mem_map.mp other
    exact Location.not_siblings_above (by decide) onWay (within bindings member)
  · obtain ⟨bindings, member, rfl⟩ := List.mem_map.mp module
    exact Location.not_siblings_above (by decide) ((within bindings member).trans onWay)
      (@List.prefix_rfl _ (root ++ ["index.ts"]))
  · obtain ⟨first, firstMember, rfl⟩ := List.mem_map.mp module
    obtain ⟨second, secondMember, rfl⟩ := List.mem_map.mp other
    have clear := compatible.apart first firstMember second secondMember
    rw [Path.location_of_clear (fresh.moduleOf firstMember).1.clear,
      Path.location_of_clear (fresh.moduleOf secondMember).1.clear, covers] at clear
    cases clear

end Outputs

section Room

variable {tools : Tools} {parser : Extraction.SignatureParser} {path : Path} {other : World}

theorem spared : World.Spared (standardLayout root).isInput (grown world root parser) world := by
  have project := fresh.repeatable
  have same : Tree.SameAt (standardLayout root).isInput world.tree
      (grown world root parser).tree := by
    refine Tree.sameAt_grown (fun place onWay free => ?_) fun place member => ?_
    · rw [Bool.eq_false_iff]
      intro input
      rcases mem_outputWays.mp onWay with onWay | ⟨path, file, onWay⟩
      · exact project.settled (by simp [Layout.outputs]) List.prefix_rfl onWay input free
      · obtain ⟨-, output, among, name, parts, -, below, -⟩ := fresh.output file
        have above := onWay.trans (List.dropLast_prefix _)
        exact project.settled among (parts ▸ below) above input free
    · obtain ⟨path, file, rfl⟩ := List.mem_map.mp member
      obtain ⟨-, output, among, name, parts, -, below, -⟩ := fresh.output file
      exact project.outside among (parts ▸ below)
  exact ⟨rfl, fun place logged => absurd logged (fresh.silent place), Tree.fits_grown _ _ _,
    same.symm⟩

theorem inside_modules :
    (grown world root parser).tree.Inside (standardLayout root).modulesDir.parts := by
  refine Tree.inside_grown (fun upper above => ?_)
    fun upper above => mem_outputWays.mpr (.inl above)
  exact fresh.sound.vacant fresh.present fresh.noModules List.prefix_rfl above

theorem written
    (compatible : (standardLayout root).Compatible (standardModules world.tree root parser))
    (file : path ∈ (standardLayout root).files (standardModules world.tree root parser)) :
    (grown world root parser).tree.Written (standardLayout root).isInput path := by
  obtain ⟨proper, output, among, name, parts, free, below, further⟩ := fresh.output file
  refine ⟨proper, ?_, ⟨[], false, ?_⟩, fresh.repeatable.outside among (parts ▸ below)⟩
  · refine Tree.inside_grown (fun upper above => ?_) fun upper above => ?_
    · exact fresh.sound.vacant fresh.present free below (above.trans (List.dropLast_prefix _))
    · exact mem_outputWays.mpr (.inr ⟨path, file, above⟩)
  · refine Tree.file_grown (fresh.sound.free_below free below) ?_ (List.mem_map_of_mem file)
    rw [mem_outputWays]
    rintro (onWay | ⟨lower, listed, onWay⟩)
    · exact further onWay
    · have apart := fresh.apart compatible file listed
      rw [Bool.eq_false_iff, ne_eq, Location.strictlyCovers_iff_dropLast] at apart
      · exact apart onWay
      · intro empty
        obtain ⟨-, -, -, name, -, -, below, -⟩ := fresh.output listed
        rw [empty] at below
        simp at below

section Left

variable (left : World.Spared (standardLayout root).isInput (grown world root parser) other)

include left

theorem same : Tree.SameAt (standardLayout root).isInput world.tree other.tree :=
  IsTrans.trans _ _ _ fresh.spared.tree.same.symm left.tree.same

theorem finds : Finds other directory root { root := root.path } (standardLayout root)
    (standardSources world.tree root) :=
  fresh.repeatable.toFinds.congr fresh.unlinked fresh.named LayoutNames.downward_standard
    left.session (left.unlinked (fresh.unlinked.grown _ _)) (fresh.same left)

theorem readsAgain {source : SourceFile} (member : source ∈ standardSources world.tree root) :
    other.tree.readBytes other.session.cwd source.path =
      .ok (Reading.of world.tree source).bytes := by
  obtain ⟨rooted, clear, kept⟩ := fresh.repeatable.sourcePath member
  have session : other.session = world.session := left.session
  rw [session, (fresh.same left).readBytes fresh.unlinked rooted clear kept]
  exact fresh.reads member

end Left

theorem generates (parsed : (findParser tools { root := root.path }).outcome world = .ok parser)
    (compatible : (standardLayout root).Compatible (standardModules world.tree root parser)) :
    ∃ report, (generate tools true directory).outcome world = .ok report := by
  have unlinked : (grown world root parser).tree.Unlinked := fresh.unlinked.grown _ _
  have silent : (grown world root parser).Silent :=
    fun place logged => fresh.silent place (World.logsTo_withTree logged)
  have listed : (standardReadings world.tree root).map (·.source) =
      standardSources world.tree root := by
    rw [standardReadings, List.map_map]
    exact List.map_id _
  have repeats : ∀ reading ∈ standardReadings world.tree root,
      reading.Repeats (standardLayout root).isInput (grown world root parser) (standardLayout root)
        parser := by
    intro reading member
    obtain ⟨source, found, rfl⟩ := List.mem_map.mp member
    refine ⟨fun other left => fresh.readsAgain left found, fun exporting => ?_⟩
    apply fresh.written compatible
    apply Layout.mem_files_of_mem
    exact List.mem_map_of_mem (List.mem_filter.mpr ⟨member, exporting⟩)
  have distinct : ((standardReadings world.tree root).foldl
      (Progress.extend (standardLayout root) parser) {}).index.importPaths.Nodup := by
    rw [importPaths_foldl_extend]
    exact compatible.indexed
  have gives := generate_gives unlinked silent rfl
    (fun other left => listed ▸ fresh.finds left)
    ((findParser_outcome tools _ _ world).trans parsed) (fresh.proper (by decide))
    fresh.inside_modules repeats rfl distinct (fresh.written compatible List.mem_cons_self)
  exact ⟨_, (gives world fresh.spared).1⟩

end Room

theorem compatible_of_plain {parser : Extraction.SignatureParser}
    (plain : ∀ bindings ∈ standardModules world.tree root parser, IsPlainName bindings.name) :
    (standardLayout root).Compatible (standardModules world.tree root parser) := by
  constructor
  · have distinct : ((standardModules world.tree root parser).map (·.name)).Nodup :=
      (discover_nodup fresh.named.tree fresh.sound.distinct _ []).sublist (names_sublist _ _ _)
    have specifiers : ∀ bindings ∈ standardModules world.tree root parser,
        (standardLayout root).importPath bindings.name = "./mod/" ++ bindings.name := by
      intro bindings member
      obtain ⟨directories, stem, names, joined⟩ := (plain bindings member).names.exists_names
      rw [joined]
      exact importPath_standard (fresh.sound.proper fresh.present).clear names (by simp)
    rw [List.map_congr_left specifiers]
    have prefixed := distinct.map fun _ _ => (String.append_right_inj "./mod/").mp
    rw [List.map_map] at prefixed
    exact prefixed
  · intro upper above lower below
    have plainLower := plain lower below
    obtain ⟨first, firstFound, firstName⟩ := exists_source above
    obtain ⟨second, secondFound, secondName⟩ := exists_source below
    obtain ⟨directories, stem, -, -, names, clear, joined, -, -⟩ := fresh.placed firstFound
    obtain ⟨otherDirectories, otherStem, -, -, otherNames, otherClear, otherJoined, -, -⟩ :=
      fresh.placed secondFound
    rw [firstName] at joined
    rw [secondName] at otherJoined
    rw [Path.location_of_clear (fresh.moduleOf above).1.clear,
      Path.location_of_clear (fresh.moduleOf below).1.clear, joined, otherJoined,
      modulePath_standard root names clear, modulePath_standard root otherNames otherClear,
      Bool.eq_false_iff, ne_eq, Location.path_parts, Location.path_parts,
      Location.strictlyCovers_iff_dropLast (by simp),
      List.append_cons root "mod" (otherDirectories ++ _), ← List.append_assoc,
      List.dropLast_concat, List.append_assoc, List.prefix_append_right_inj,
      List.singleton_append, List.cons_prefix_cons]
    rintro ⟨-, begins⟩
    -- The file of the first module would be a directory of the second.
    have directory : stem ++ ".ts" ∈ otherDirectories := begins.subset (by simp)
    refine plainLower.directories (stem ++ ".ts").toList ?_ ?_
    · rw [otherJoined, splitAt_intercalate_concat otherNames otherClear, List.dropLast_concat]
      exact List.mem_map_of_mem directory
    · rw [String.toList_append]
      exact List.suffix_append _ _

end Fresh

end Generation

open Generation

/-- A generation in a fresh project, without compiling, comes to its end exactly if the modules it
makes are compatible. They are if their names are paths of names and no directory of the sources is
named like the file of a binding. -/
theorem generate_fresh {tools : Tools} {directory : Path} {root : Location} {world : World}
    {parser : Extraction.SignatureParser} (fresh : Fresh world directory root)
    (parsed : (findParser tools { root := root.path }).outcome world = .ok parser) :
    ((∃ report, (generate tools true directory).outcome world = .ok report) ↔
      (standardLayout root).Compatible (standardModules world.tree root parser)) ∧
    ((∀ bindings ∈ standardModules world.tree root parser, IsPlainName bindings.name) →
      ∃ report, (generate tools true directory).outcome world = .ok report) := by
  refine ⟨⟨?_, fresh.generates parsed⟩, fun plain => ?_⟩
  · rintro ⟨report, returned⟩
    exact fresh.compatible returned parsed
  · exact fresh.generates parsed (fresh.compatible_of_plain plain)

theorem smallProject_fresh : Fresh smallProject (Location.path ["p"]) ["p"] where
  unlinked := smallProject_unlinked
  named := smallProject_named
  sound := by decide
  silent := by
    rintro place ⟨handlers, present, -⟩
    cases present
  resolved := smallProject_resolve
  sources := by decide
  unset := by decide
  noModules := by decide
  noIndex := by decide

theorem smallProject_generates :
    ∃ report, (generate standardTools true (Location.path ["p"])).outcome smallProject =
      .ok report := by
  refine (generate_fresh smallProject_fresh rfl).2 fun bindings member => ?_
  obtain ⟨source, found, named⟩ := exists_source member
  have discovered : standardSources smallProject.tree ["p"] = [smallSource] := smallProject_accepted.found
  rw [discovered, List.mem_singleton] at found
  subst found
  rw [← named]
  exact ⟨by unfold IsNamePath; decide, by decide⟩

def dottedProject : World :=
  { tree :=
      { entries :=
          [ (["p"], .directory),
            (["p", "rs"], .directory),
            (["p", "rs", ".rs"],
              .file (Text.utf8 "#[no_mangle] pub extern \"C\" fn f() \x7b\x7d") false),
            (["p", "rs", "..rs"],
              .file (Text.utf8 "#[no_mangle] pub extern \"C\" fn g() \x7b\x7d") false) ] }
    session := { cwd := [], homes := [] }
    time := "" }

def dottedSources : List SourceFile :=
  [ { path := Location.path ["p", "rs", ".rs"], relativePath := ".rs", moduleName := "" },
    { path := Location.path ["p", "rs", "..rs"], relativePath := "..rs", moduleName := "." } ]

theorem dottedProject_refused :
    Fresh dottedProject (Location.path ["p"]) ["p"] ∧
      ∀ report, (generate standardTools true (Location.path ["p"])).outcome dottedProject ≠
        .ok report := by
  have unlinked : dottedProject.tree.Unlinked := by
    intro location target linked
    by_cases root : location = []
    · simp [root] at linked
    · have listed := Tree.mem_entries_of_found root linked
      simp [dottedProject] at listed
  have fresh : Fresh dottedProject (Location.path ["p"]) ["p"] :=
    { unlinked
      named := ⟨by decide, by decide⟩
      sound := by decide
      silent := by
        rintro place ⟨handlers, present, -⟩
        cases present
      resolved := Tree.resolve_self (fun upper _ target => unlinked upper target) (by decide)
        (by decide) _
      sources := by decide
      unset := by decide
      noModules := by decide
      noIndex := by decide }
  refine ⟨fresh, fun report returned => ?_⟩
  have compatible := @Fresh.compatible _ _ _ fresh standardTools _ _ returned rfl
  have located : dottedProject.tree.locate [] true (standardLayout ["p"]).sourceDir =
      .ok ["p", "rs"] := fresh.sound.locate_self unlinked fresh.sources [] true
  have made : ∀ source ∈ dottedSources,
      (Reading.of dottedProject.tree source).bindings Extraction.declarationParser ∈
        standardModules dottedProject.tree ["p"] Extraction.declarationParser := by
    intro source member
    have listed : Discovery.unsorted dottedProject.tree ["p", "rs"]
        (standardLayout ["p"]).sourceDir [] = dottedSources := by decide +kernel
    have exports : ∀ source ∈ dottedSources, (Reading.of dottedProject.tree source).exportsAny
        Extraction.declarationParser = true := by decide +kernel
    have found : source ∈ standardSources dottedProject.tree ["p"] := by
      rw [standardSources, discover, located]
      exact List.mem_mergeSort.mpr (listed ▸ member)
    exact List.mem_map_of_mem (List.mem_filter.mpr
      ⟨List.mem_map_of_mem found, exports source member⟩)
  -- Both modules go by `./mod` in the index, as the path to either ends with that directory.
  have same := List.inj_on_of_nodup_map compatible.indexed (made _ List.mem_cons_self)
    (made _ (List.mem_cons_of_mem _ List.mem_cons_self)) (by decide +kernel)
  have names : "" = "." := congrArg BindingModule.name same
  exact absurd names (by decide)

end FfiBindings
