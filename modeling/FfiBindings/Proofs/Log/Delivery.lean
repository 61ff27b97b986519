import FfiBindings.Log.Configure
import FfiBindings.Proofs.Run.Frame
import FfiBindings.Proofs.Tree.Content

set_option autoImplicit false

namespace FfiBindings

open ExceptT

namespace Log

theorem leadsToProgram_cons {c : Char} (name : c ≠ '.') (used : List (List Char))
    (rest : List Char) : leadsToProgram used (c :: rest) = leadsToProgram used rest := by
  rw [leadsToProgram.eq_2]
  intro next others same
  exact (name same).elim

theorem leadsToProgram_of_notMem (used : List (List Char)) {name : List Char}
    (plain : '.' ∉ name) : leadsToProgram used name = false := by
  induction name with
  | nil => rfl
  | cons first rest ih =>
    rw [List.mem_cons, not_or] at plain
    rw [leadsToProgram_cons (Ne.symm plain.1), ih plain.2]

theorem program_plain : '.' ∉ programLogger.toList.reverse := by decide

theorem leadsToProgram_append (used : List (List Char)) {name : List Char}
    (solid : name.getLast? ≠ some '.') (tail : List Char) :
    leadsToProgram used (name ++ '.' :: tail) = leadsToProgram used ('.' :: tail) := by
  have behind : ∀ {c : Char} {rest : List Char},
      (c :: rest).getLast? ≠ some '.' → rest.getLast? ≠ some '.' := by
    intro c rest solid
    cases rest with
    | nil => simp
    | cons next others => rwa [List.getLast?_cons_cons] at solid
  -- A cut takes one or two characters away, so the induction is on the length.
  induction size : name.length using Nat.strongRecOn generalizing name with
  | _ length ih =>
    have shorter : ∀ other : List Char, other.length < length → other.getLast? ≠ some '.' →
        leadsToProgram used (other ++ '.' :: tail) = leadsToProgram used ('.' :: tail) :=
      fun other fewer solid => ih other.length fewer solid rfl
    cases name with
    | nil => rfl
    | cons first rest =>
      rw [List.length_cons] at size
      by_cases point : first = '.'
      · subst point
        cases rest with
        | nil => simp at solid
        | cons c rest =>
          rw [List.length_cons] at size
          have longer : (c :: (rest ++ '.' :: tail) == programLogger.toList.reverse) = false := by
            rw [beq_eq_false_iff_ne]
            intro same
            exact program_plain (same ▸ by simp)
          rw [List.cons_append, List.cons_append, leadsToProgram, longer,
            if_neg Bool.false_ne_true]
          split
          · exact shorter (c :: rest) (by simp only [List.length_cons]; omega) (behind solid)
          · exact shorter rest (by omega) (behind (behind solid))
      · rw [List.cons_append, leadsToProgram_cons point]
        exact shorter rest (by omega) (behind solid)

theorem loggerName_backwards {component : String} (given : component.isEmpty = false) :
    (loggerName component).toList.reverse =
      component.toList.reverse ++ '.' :: programLogger.toList.reverse := by
  simp [loggerName, given]

theorem reachesProgram_of_head {component : String} (plain : component.toList.head? ≠ some '.')
    (used : List String) : reachesProgram used component = true := by
  cases given : component.isEmpty with
  | true => simp [reachesProgram, given]
  | false =>
    have solid : component.toList.reverse.getLast? ≠ some '.' := by
      rwa [List.getLast?_reverse]
    obtain ⟨c, rest, spelled⟩ : ∃ c rest, programLogger.toList.reverse = c :: rest := ⟨_, _, rfl⟩
    have found : ∀ used, leadsToProgram used ('.' :: programLogger.toList.reverse) = true := by
      intro used
      rw [spelled, leadsToProgram, ← spelled]
      simp
    simp only [reachesProgram, loggerName_backwards given, leadsToProgram_append _ solid, found,
      Bool.or_true]

-- Behind a single point a component is cut off: the logger that its name leads to has no name of
-- its own, so it is never used.
theorem not_reachesProgram_of_point {component : String} {rest : List Char}
    (pointed : component.toList = '.' :: rest) (single : rest.head? ≠ some '.')
    (used : List String) : reachesProgram used component = false := by
  have given : component.isEmpty = false := by
    rw [String.isEmpty_eq_false_iff]
    rintro rfl
    cases pointed
  have solid : rest.reverse.getLast? ≠ some '.' := by rwa [List.getLast?_reverse]
  have name : (loggerName component).toList.reverse =
      rest.reverse ++ '.' :: '.' :: programLogger.toList.reverse := by
    rw [loggerName_backwards given, pointed]
    simp
  have unused : (used.map fun component => (loggerName component).toList.reverse).contains
      ('.' :: programLogger.toList.reverse) = false := by
    rw [Bool.eq_false_iff]
    intro found
    obtain ⟨other, -, same⟩ := List.mem_map.mp (List.contains_iff_mem.mp found)
    cases named : other.isEmpty with
    | true =>
      rw [loggerName, if_pos named] at same
      exact program_plain (same ▸ List.mem_cons_self)
    | false =>
      rw [loggerName_backwards named] at same
      have length := congrArg List.length same
      rw [List.length_append, Nat.add_eq_right, List.length_reverse, List.length_eq_zero_iff,
        String.toList_eq_nil_iff] at length
      rw [length] at named
      cases named
  have longer : ('.' :: programLogger.toList.reverse == programLogger.toList.reverse) = false := by
    decide
  have lost : leadsToProgram (used.map fun component => (loggerName component).toList.reverse)
      ('.' :: '.' :: programLogger.toList.reverse) = false := by
    rw [leadsToProgram, longer, unused]
    exact leadsToProgram_of_notMem _ program_plain
  simp only [reachesProgram, given, name, leadsToProgram_append _ solid, lost, Bool.or_self]

end Log

namespace Tree

variable {before middle after tree : Tree} {location place : Location}

def bytesAt (tree : Tree) (location : Location) : Text.Bytes :=
  match tree.entry? location with
  | some (.file content _) => content
  | _ => []

def HoldsFile (tree : Tree) (location : Location) : Prop :=
  ∃ content executable, tree.entry? location = some (.file content executable)

theorem bytesAt_of_file {content : Text.Bytes} {executable : Bool}
    (held : tree.entry? location = some (.file content executable)) :
    tree.bytesAt location = content := by
  rw [bytesAt, held]

structure KeepsFiles (before after : Tree) : Prop where
  bytes : ∀ location, after.bytesAt location = before.bytesAt location
  files : ∀ location, before.HoldsFile location → after.HoldsFile location

theorem KeepsFiles.refl (tree : Tree) : KeepsFiles tree tree :=
  ⟨fun _ => rfl, fun _ held => held⟩

theorem KeepsFiles.trans (first : KeepsFiles before middle) (second : KeepsFiles middle after) :
    KeepsFiles before after where
  bytes location := (second.bytes location).trans (first.bytes location)
  files location held := second.files location (first.files location held)

theorem keepsFiles_put {entry : Entry}
    (bytes : (tree.put place entry).bytesAt place = tree.bytesAt place)
    (file : tree.HoldsFile place → (tree.put place entry).HoldsFile place) :
    KeepsFiles tree (tree.put place entry) := by
  constructor
  · intro location
    by_cases here : location = place
    · rw [here, bytes]
    · rw [bytesAt, entry?_put_of_ne _ _ here, bytesAt]
  · intro location held
    by_cases here : location = place
    · exact here ▸ file (here ▸ held)
    · rwa [HoldsFile, entry?_put_of_ne _ _ here]

theorem Openings.keepsFiles {cwd : Location} {path : Path}
    (openings : Openings cwd path before after) : KeepsFiles before after := by
  induction openings with
  | refl => exact .refl before
  | tail _ opening ih =>
    apply ih.trans
    cases opening with
    | @make parts place above located free =>
      have inside : place ≠ [] := by
        rintro rfl
        simp at free
      apply keepsFiles_put
      · rw [bytesAt, entry?_put_self _ _ inside, bytesAt, free]
      · rintro ⟨content, executable, held⟩
        exact nomatch free.symm.trans held

theorem update_id_keepsFiles (tree : Tree) (cwd : Location) (path : Path) :
    KeepsFiles tree ((update cwd path id).after tree) ∧
    ∀ location, (update cwd path id).outcome tree = .ok location →
      ((update cwd path id).after tree).HoldsFile location ∧
      ((update cwd path id).after tree).locate cwd true path = .ok location := by
  have opens : ∀ (executable : Bool) {place : Location}, tree.locate cwd true path = .ok place →
      tree.Writable place →
      KeepsFiles tree (tree.put place (.file (tree.bytesAt place) executable)) ∧
        (tree.put place (.file (tree.bytesAt place) executable)).HoldsFile place ∧
        (tree.put place (.file (tree.bytesAt place) executable)).locate cwd true path =
          .ok place := by
    intro executable place located writable
    have held := entry?_put_self tree (.file (tree.bytesAt place) executable) writable.ne_nil
    have file : (tree.put place (.file (tree.bytesAt place) executable)).HoldsFile place :=
      ⟨_, _, held⟩
    exact ⟨keepsFiles_put (bytesAt_of_file held) fun _ => file, file,
      locate_put_file writable _ _ located⟩
  unfold update
  split
  · exact ⟨.refl tree, fun location opened => nomatch opened⟩
  · simp only [outcome_bind, after_bind, outcome_get, after_get]
    split
    · exact ⟨.refl tree, fun location opened => nomatch opened⟩
    · next place located =>
      split
      · next free =>
        have nothing : tree.bytesAt place = [] := by rw [bytesAt, free]
        have opened := opens false located (writable_of_free free)
        rw [nothing] at opened
        exact ⟨opened.1, fun location same => Except.ok.inj same ▸ opened.2⟩
      · next content executable held =>
        have opened := opens executable located (writable_of_file held)
        rw [bytesAt_of_file held] at opened
        exact ⟨opened.1, fun location same => Except.ok.inj same ▸ opened.2⟩
      · exact ⟨.refl tree, fun location opened => nomatch opened⟩

theorem appendLine_bytes (held : tree.HoldsFile location) (line : String) (place : Location) :
    (World.appendLine tree (.attached location) line).bytesAt place =
      tree.bytesAt place ++ if location = place then Text.utf8 (line ++ "\n") else [] := by
  obtain ⟨content, executable, held⟩ := held
  simp only [World.appendLine, held]
  by_cases here : location = place
  · subst here
    rw [if_pos rfl, bytesAt_of_file held]
    exact bytesAt_of_file (entry?_put_self _ _ (writable_of_file held).ne_nil)
  · rw [if_neg here, List.append_nil, bytesAt, entry?_put_of_ne _ _ (Ne.symm here), bytesAt]

theorem appendLine_files (held : tree.HoldsFile location) (line : String) (file : Log.LogFile) :
    (World.appendLine tree file line).HoldsFile location := by
  rcases World.appendLine_cases tree file line with
    same | ⟨place, content, executable, -, found, put⟩
  · rwa [same]
  · rw [put]
    by_cases here : location = place
    · subst here
      exact ⟨_, _, entry?_put_self _ _ (writable_of_file found).ne_nil⟩
    · rwa [HoldsFile, entry?_put_of_ne _ _ here]

end Tree

namespace Log

inductive Call where
  | configure (verbose : Bool) (file : Option Path)
  | log (record : Record)
deriving DecidableEq, Repr

def Call.perform (world : World) : Call → World
  | configure verbose file => (Log.configure verbose file).after world
  | log record => (Run.log record).after world

/-- What a configuration sets up: from which level on records count, and the file that gets them
besides the console. -/
structure Setup where
  threshold : Level
  file : Option Location
deriving DecidableEq, Repr

def Setup.of (world : World) (verbose : Bool) (file : Option Path) : Setup where
  threshold := thresholdFor verbose
  file := file.bind fun path => ((openFile path).outcome world).toOption

structure Delivery where
  record : Record
  file : Option Location
deriving DecidableEq, Repr

def Setup.delivered (setup : Setup) (record : Record) : List Delivery :=
  if setup.threshold.rank ≤ record.level.rank then [{ record, file := setup.file }] else []

/-- The deliveries that some calls ask for, each by the configuration before it. -/
def deliveries (world : World) (setup : Setup) : List Call → List Delivery
  | [] => []
  | .configure verbose file :: rest =>
    deliveries ((Call.configure verbose file).perform world) (.of world verbose file) rest
  | .log record :: rest =>
    setup.delivered record ++ deliveries ((Call.log record).perform world) setup rest

def consoleText (received : List Delivery) : String :=
  String.join (received.map fun delivery => delivery.record.consoleLine ++ "\n")

def fileBytes (time : String) (location : Location) (received : List Delivery) : Text.Bytes :=
  (received.filter fun delivery => delivery.file == some location).flatMap fun delivery =>
    Text.utf8 (time ++ " " ++ delivery.record.detailedLine ++ "\n")

theorem consoleText_append (first second : List Delivery) :
    consoleText (first ++ second) = consoleText first ++ consoleText second := by
  simp [consoleText]

theorem fileBytes_append (time : String) (location : Location) (first second : List Delivery) :
    fileBytes time location (first ++ second) =
      fileBytes time location first ++ fileBytes time location second := by
  simp [fileBytes]

/-- Exactly these deliveries were made between two worlds: the console and each file got theirs in
order behind what was there, and the files are there. -/
structure Delivers (before after : World) (received : List Delivery) : Prop where
  time : after.time = before.time
  console : after.console = before.console ++ consoleText received
  bytes : ∀ location, after.tree.bytesAt location =
    before.tree.bytesAt location ++ fileBytes before.time location received
  files : ∀ location, before.tree.HoldsFile location → after.tree.HoldsFile location
  reached : ∀ delivery ∈ received, ∀ location, delivery.file = some location →
    after.tree.HoldsFile location

theorem Delivers.trans {before middle after : World} {first second : List Delivery}
    (early : Delivers before middle first) (late : Delivers middle after second) :
    Delivers before after (first ++ second) where
  time := late.time.trans early.time
  console := by rw [late.console, early.console, consoleText_append, String.append_assoc]
  bytes location := by
    rw [late.bytes, early.bytes, early.time, fileBytes_append, List.append_assoc]
  files location held := late.files location (early.files location held)
  reached delivery member location file := by
    rcases List.mem_append.mp member with before | after
    · exact late.files location (early.reached delivery before location file)
    · exact late.reached delivery after location file

theorem delivers_nothing {before after : World} (time : after.time = before.time)
    (console : after.console = before.console) (kept : before.tree.KeepsFiles after.tree) :
    Delivers before after [] where
  time := time
  console := by simp [console, consoleText]
  bytes location := by simp [kept.bytes, fileBytes]
  files := kept.files
  reached delivery member := nomatch member

def Setup.handlers (setup : Setup) : Handlers where
  threshold := setup.threshold
  file := match setup.file with
    | none => .none
    | some location => .attached location

structure Setup.InForce (setup : Setup) (world : World) : Prop where
  handlers : world.handlers = some setup.handlers
  held : ∀ location, setup.file = some location → world.tree.HoldsFile location

theorem Setup.InForce.log {setup : Setup} {world : World} (inForce : setup.InForce world)
    {record : Record} (plain : record.component.toList.head? ≠ some '.') :
    setup.InForce (world.log record) ∧
      Delivers world (world.log record) (setup.delivered record) := by
  have handled : world.handlersFor record = some setup.handlers := by
    rw [World.handlersFor, reachesProgram_of_head plain, if_pos rfl, inForce.handlers]
  have attached : (world.log record).handlers = some setup.handlers := by
    rw [World.log_handlers, inForce.handlers]
  by_cases counts : setup.threshold.rank ≤ record.level.rank
  · have delivered : setup.delivered record = [{ record, file := setup.file }] := if_pos counts
    have logged : world.log record =
        { world with
          records := world.records ++ [record]
          console := world.console ++ record.consoleLine ++ "\n"
          tree := World.appendLine world.tree setup.handlers.file
            (world.time ++ " " ++ record.detailedLine) } := by
      have threshold : setup.handlers.threshold.rank ≤ record.level.rank := counts
      simp only [World.log, handled, if_pos threshold]
    have files : ∀ location, world.tree.HoldsFile location →
        (world.log record).tree.HoldsFile location := by
      intro location held
      rw [logged]
      exact Tree.appendLine_files held _ _
    have reached : ∀ location, setup.file = some location →
        (world.log record).tree.HoldsFile location :=
      fun location file => files location (inForce.held location file)
    refine ⟨⟨attached, reached⟩, ?_⟩
    rw [delivered]
    refine ⟨by rw [logged], ?_, fun location => ?_, files, ?_⟩
    · rw [logged]
      simp [consoleText, String.append_assoc]
    · rw [logged]
      cases file : setup.file with
      | none =>
        have unattached : setup.handlers.file = .none := by rw [Setup.handlers, file]
        rw [unattached]
        simp [World.appendLine, fileBytes]
      | some place =>
        have given : setup.handlers.file = .attached place := by rw [Setup.handlers, file]
        rw [given, Tree.appendLine_bytes (inForce.held place file)]
        by_cases here : place = location <;> simp [fileBytes, here]
    · intro delivery member location file
      rw [List.mem_singleton.mp member] at file
      exact reached location file
  · have delivered : setup.delivered record = [] := if_neg counts
    have logged : world.log record = { world with records := world.records ++ [record] } := by
      have threshold : ¬ setup.handlers.threshold.rank ≤ record.level.rank := counts
      simp only [World.log, handled, if_neg threshold]
    rw [delivered, logged]
    exact ⟨⟨inForce.handlers, inForce.held⟩, delivers_nothing rfl rfl (.refl _)⟩

theorem detach_of_bare {handlers : Option Handlers}
    (bare : ∀ attached, handlers = some attached → attached.file = .none) (tree : Tree) :
    handlers.map (World.detach tree) = handlers := by
  cases handlers with
  | none => rfl
  | some attached => simp [World.detach, bare attached rfl]

theorem openFile_after {world : World}
    (bare : ∀ attached, world.handlers = some attached → attached.file = .none) (file : Path) :
    ∃ tree, (openFile file).after world = { world with tree } ∧ world.tree.KeepsFiles tree ∧
      ∀ location, (openFile file).outcome world = .ok location → tree.HoldsFile location ∧
        tree.locate world.session.cwd true (Tree.placeAt world.session.cwd file).path =
          .ok location := by
  have made := (Tree.makeDirectories_openings world.tree world.session.cwd file.parent).keepsFiles
  have directories := Run.makeDirectories_after file.parent world
  rw [World.withTree, detach_of_bare bare] at directories
  unfold openFile
  simp only [outcome_bind, after_bind, directories]
  cases (Run.makeDirectories file.parent).outcome world with
  | error failure =>
    refine ⟨_, rfl, made, fun location opened => ?_⟩
    cases opened
  | ok _ =>
    simp only [Run.cwd_outcome, Run.cwd_after, Run.onTree_outcome, Run.onTree_after,
      World.withTree, detach_of_bare bare]
    have opened := Tree.update_id_keepsFiles
      ((Tree.makeDirectories world.session.cwd file.parent).after world.tree) world.session.cwd
      (Tree.placeAt world.session.cwd file).path
    refine ⟨_, rfl, made.trans opened.1, fun location succeeded => ?_⟩
    exact opened.2 location (Except.mapError_eq_ok.mp succeeded)

theorem openFile_outcome (world : World) (handlers : Option Handlers) (file : Path) :
    (openFile file).outcome { world with handlers } = (openFile file).outcome world := by
  simp [openFile, outcome_bind]

theorem configure_delivers (world : World) (verbose : Bool) (file : Option Path) :
    let configured := (Call.configure verbose file).perform world
    (Setup.of world verbose file).InForce configured ∧ Delivers world configured [] ∧
      ∀ path ∈ file, ∀ location ∈ (Setup.of world verbose file).file,
        configured.tree.locate world.session.cwd true (Tree.placeAt world.session.cwd path).path =
          .ok location := by
  intro configured
  cases file with
  | none =>
    exact ⟨⟨rfl, fun location opened => nomatch opened⟩,
      delivers_nothing rfl rfl (.refl world.tree), fun path given => nomatch given⟩
  | some file =>
    obtain ⟨bare, attached⟩ : ∃ bare : World, bare =
      { world with handlers := some { threshold := thresholdFor verbose, file := .none } } :=
      ⟨_, rfl⟩
    have unattached : ∀ handlers, bare.handlers = some handlers → handlers.file = .none := by
      rw [attached]
      rintro _ ⟨⟩
      rfl
    obtain ⟨tree, left, kept, held⟩ := openFile_after unattached file
    have same : (openFile file).outcome bare = (openFile file).outcome world := by
      rw [attached, openFile_outcome]
    have performed : configured =
        after (openFile file >>= fun location => modify fun world => { world with
          handlers := some { threshold := thresholdFor verbose, file := .attached location } })
          bare := by
      rw [attached]
      rfl
    rw [performed, after_bind, left]
    cases opened : (openFile file).outcome bare with
    | ok location =>
      have setup : Setup.of world verbose (some file) =
          { threshold := thresholdFor verbose, file := some location } := by
        rw [Setup.of, Option.bind_some, ← same, opened]
        rfl
      rw [setup]
      subst attached
      refine ⟨⟨rfl, fun place given => ?_⟩, delivers_nothing rfl rfl kept, ?_⟩
      · obtain rfl := Option.some.inj given
        exact (held location opened).1
      · rintro path ⟨⟩ place ⟨⟩
        exact (held location opened).2
    | error failure =>
      have setup : Setup.of world verbose (some file) =
          { threshold := thresholdFor verbose, file := none } := by
        rw [Setup.of, Option.bind_some, ← same, opened]
        rfl
      rw [setup]
      subst attached
      exact ⟨⟨rfl, fun place given => nomatch given⟩, delivers_nothing rfl rfl kept,
        fun path given place opened => nomatch opened⟩

theorem Setup.InForce.run {setup : Setup} {world : World} (inForce : setup.InForce world)
    {calls : List Call}
    (plain : ∀ record, .log record ∈ calls → record.component.toList.head? ≠ some '.') :
    Delivers world (calls.foldl Call.perform world) (deliveries world setup calls) := by
  induction calls generalizing setup world with
  | nil => exact delivers_nothing rfl rfl (.refl world.tree)
  | cons call rest ih =>
    have others : ∀ record, .log record ∈ rest → record.component.toList.head? ≠ some '.' :=
      fun record member => plain record (List.mem_cons_of_mem _ member)
    cases call with
    | configure verbose file =>
      obtain ⟨next, written, -⟩ := configure_delivers world verbose file
      exact written.trans (ih next others)
    | log record =>
      obtain ⟨next, written⟩ := inForce.log (plain record List.mem_cons_self)
      exact written.trans (ih next others)

/-- Calls that begin with a configuration deliver every record that is urgent enough for the
configuration before it, once to the console and once to its file, and nothing else. The file is the
one that the path leads to. -/
theorem records_delivered_once (world : World) (verbose : Bool) (file : Option Path)
    (calls : List Call)
    (plain : ∀ record, .log record ∈ calls → record.component.toList.head? ≠ some '.') :
    let configured := (Call.configure verbose file).perform world
    Delivers world ((Call.configure verbose file :: calls).foldl Call.perform world)
      (deliveries configured (.of world verbose file) calls) ∧
    ∀ path ∈ file, ∀ location ∈ (Setup.of world verbose file).file,
      configured.tree.locate world.session.cwd true (Tree.placeAt world.session.cwd path).path =
        .ok location := by
  obtain ⟨inForce, written, located⟩ := configure_delivers world verbose file
  exact ⟨written.trans (inForce.run plain), located⟩

def loggedDirectory : World where
  tree := { entries := [(["d"], .directory), (["d", "old.log"], .file (Text.utf8 "kept\n") false)] }
  session := { cwd := ["d"], homes := [] }
  time := "12:00:00"

def oldLog : Path := { anchor := .here, parts := ["old.log"] }

def brokenName : Path := { anchor := .here, parts := ["\x00"] }

def mixedCalls : List Call :=
  [ .log { level := .info, component := "generator", message := "a" },
    .log { level := .debug, component := "", message := "quiet" },
    .configure true (some brokenName),
    .log { level := { rank := 15 }, component := "x.y", message := "b" } ]

theorem openFile_beside {world : World} {file : Path}
    (beside : Tree.makeDirectories world.session.cwd file.parent = pure ()) :
    (openFile file).outcome world =
      ((Tree.update world.session.cwd
        (Tree.placeAt world.session.cwd file).path id).outcome
        world.tree).mapError .file := by
  simp only [openFile, outcome_bind, Run.makeDirectories_outcome, Run.makeDirectories_after,
    Run.cwd_outcome, Run.cwd_after, Run.onTree_outcome, beside]
  rfl

theorem oldLog_opened :
    (openFile oldLog).outcome loggedDirectory = .ok ["d", "old.log"] := by
  have held : loggedDirectory.tree.entry? ["d", "old.log"] =
      some (.file (Text.utf8 "kept\n") false) := by rfl
  have located : loggedDirectory.tree.locate ["d"] true (Location.path ["d", "old.log"]) =
      .ok ["d", "old.log"] :=
    Tree.Leads.walk_eq (.into (by decide) (by decide) (by decide)
      (.last (by decide) (by decide) (Tree.writable_of_file held)))
  have plain : Tree.containsNulPart (Location.path ["d", "old.log"]) = false := by decide
  rw [openFile_beside rfl]
  change ((Tree.update ["d"] (Location.path ["d", "old.log"]) id).outcome _).mapError _ = _
  simp only [Tree.update, plain, Bool.false_eq_true, if_false, outcome_bind, outcome_get, after_get,
    located, held]
  rfl

theorem brokenName_refused (world : World) :
    (openFile brokenName).outcome world = .error (.file .nulInPath) := by
  have broken : Tree.containsNulPart (world.session.cwd ++ ["\x00"] : Location).path = true := by
    have nul : containsNul "\x00" = true := by decide
    simp [Tree.containsNulPart, Location.path, nul]
  rw [openFile_beside rfl]
  change ((Tree.update _ (world.session.cwd ++ ["\x00"] : Location).path id).outcome _).mapError _ =
    _
  rw [Tree.update, if_pos broken]
  rfl

theorem mixedCalls_delivered :
    (∀ record, .log record ∈ mixedCalls → record.component.toList.head? ≠ some '.') ∧
    let final := (Call.configure false (some oldLog) :: mixedCalls).foldl Call.perform
      loggedDirectory
    final.console = "[rustport] INFO a\n[rustport] Level 15 b\n" ∧
    final.tree.bytesAt ["d", "old.log"] =
      Text.utf8 "kept\n" ++ Text.utf8 "12:00:00 INFO rustport.generator: a\n" := by
  have plain : ∀ record, .log record ∈ mixedCalls → record.component.toList.head? ≠ some '.' := by
    simp [mixedCalls]
  have written := (records_delivered_once loggedDirectory false (some oldLog) mixedCalls plain).1
  have first : Setup.of loggedDirectory false (some oldLog) =
      { threshold := .info, file := some ["d", "old.log"] } := by
    rw [Setup.of, Option.bind_some, oldLog_opened]
    rfl
  have second (world : World) : Setup.of world true (some brokenName) =
      { threshold := .debug, file := none } := by
    rw [Setup.of, Option.bind_some, brokenName_refused]
    rfl
  have received (world : World) :
      deliveries world { threshold := .info, file := some ["d", "old.log"] } mixedCalls =
        [ { record := { level := .info, component := "generator", message := "a" }
            file := some ["d", "old.log"] },
          { record := { level := { rank := 15 }, component := "x.y", message := "b" }
            file := none } ] := by
    simp only [mixedCalls, deliveries, second]
    rfl
  simp only [first, received] at written
  refine ⟨plain, written.console.trans ?_, (written.bytes _).trans ?_⟩
  · rfl
  · rfl

-- A component behind a point is cut off from the handlers: what it logs is lost, or stands on the
-- console without its level if it is a warning or worse.
theorem log_of_point {world : World} {record : Record} {rest : List Char}
    (pointed : record.component.toList = '.' :: rest) (single : rest.head? ≠ some '.') :
    world.log record =
      { world with
        records := world.records ++ [record]
        console :=
          if Level.warning.rank ≤ record.level.rank then world.console ++ record.message ++ "\n"
          else world.console } := by
  have unhandled : world.handlersFor record = none := by
    rw [World.handlersFor, not_reachesProgram_of_point pointed single, if_neg Bool.false_ne_true]
  simp only [World.log, unhandled]
  split <;> rfl

def pointedRecord : Record := { level := .info, component := ".x", message := "m" }

-- The exception is needed: this record is urgent enough and gets nowhere.
theorem pointedRecord_lost :
    ¬ Delivers loggedDirectory
      ([.configure false none, .log pointedRecord].foldl Call.perform loggedDirectory)
      (deliveries ((Call.configure false none).perform loggedDirectory)
        (.of loggedDirectory false none) [.log pointedRecord]) := by
  intro delivered
  have pointed : pointedRecord.component.toList = ['.', 'x'] := by decide
  have console : (((Call.configure false none).perform loggedDirectory).log pointedRecord).console =
      "[rustport] INFO m\n" := delivered.console
  rw [log_of_point pointed (by decide)] at console
  exact absurd console (by decide)

end Log

end FfiBindings
