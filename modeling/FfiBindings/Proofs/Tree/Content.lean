import FfiBindings.Proofs.Tree.Operations

set_option autoImplicit false

namespace FfiBindings.Tree

open ExceptT

/-- The components lead from a place to another, through at most so many links. -/
inductive Leads (tree : Tree) (follow : Bool) : Nat → Location → List String → Location → Prop
  | done (links : Nat) (here : Location) : Leads tree follow links here [] here
  | up {links : Nat} {here location : Location} {rest : List String}
      (onward : Leads tree follow links here.dropLast rest location) :
      Leads tree follow links here (".." :: rest) location
  | last {links : Nat} {here : Location} {part : String} (name : part ≠ "..")
      (short : part.utf8ByteSize ≤ nameLimit) (writable : tree.Writable (here ++ [part])) :
      Leads tree follow links here [part] (here ++ [part])
  | into {links : Nat} {here location : Location} {part : String} {rest : List String}
      (name : part ≠ "..") (short : part.utf8ByteSize ≤ nameLimit)
      (directory : tree.entry? (here ++ [part]) = some .directory)
      (onward : Leads tree follow links (here ++ [part]) rest location) :
      Leads tree follow links here (part :: rest) location
  | stay {links : Nat} {here : Location} {part target : String} (name : part ≠ "..")
      (short : part.utf8ByteSize ≤ nameLimit)
      (linked : tree.entry? (here ++ [part]) = some (.link target)) (unfollowed : follow = false) :
      Leads tree follow links here [part] (here ++ [part])
  | through {links : Nat} {here location : Location} {part target : String} {rest : List String}
      (name : part ≠ "..") (short : part.utf8ByteSize ≤ nameLimit)
      (linked : tree.entry? (here ++ [part]) = some (.link target))
      (followed : ¬ (rest.isEmpty && !follow) = true) (given : ¬ target.isEmpty = true)
      (onward : Leads tree follow links (linkStart (Path.ofString target) here)
        ((Path.ofString target).parts ++ rest) location) :
      Leads tree follow (links + 1) here (part :: rest) location

theorem leads_of_walk {tree : Tree} {follow : Bool} {links : Nat} {here location : Location}
    {parts : List String} (found : tree.walk follow links here parts = .ok location) :
    Leads tree follow links here parts location := by
  -- Where the walk fails there is nothing to show; every other case is one of the rules.
  induction links, here, parts using walk.induct tree follow with
  | case1 links here =>
    rw [walk] at found
    obtain rfl := Except.ok.inj found
    exact .done links _
  | case2 links here rest ih =>
    rw [walk_up] at found
    exact .up (ih found)
  | case3 links here part rest name long =>
    rw [walk.eq_3 _ _ _ _ _ _ name, if_pos long] at found
    cases found
  | case4 links here part rest name next short free last =>
    replace free : tree.entry? (here ++ [part]) = none := free
    rw [walk.eq_3 _ _ _ _ _ _ name, if_neg short] at found
    simp only [free, last, if_true] at found
    cases found
    rw [List.isEmpty_iff.mp last]
    exact .last name (Nat.not_lt.mp short) (writable_of_free free)
  | case5 links here part rest name next short free more =>
    replace free : tree.entry? (here ++ [part]) = none := free
    rw [walk.eq_3 _ _ _ _ _ _ name, if_neg short] at found
    simp only [free, more] at found
    cases found
  | case6 links here part rest name next short directory ih =>
    rw [walk_into name (Nat.not_lt.mp short) directory] at found
    exact .into name (Nat.not_lt.mp short) directory (ih found)
  | case7 links here part rest name next short content executable file last =>
    replace file : tree.entry? (here ++ [part]) = some (.file content executable) := file
    rw [walk.eq_3 _ _ _ _ _ _ name, if_neg short] at found
    simp only [file, last, if_true] at found
    cases found
    rw [List.isEmpty_iff.mp last]
    exact .last name (Nat.not_lt.mp short) (writable_of_file file)
  | case8 links here part rest name next short content executable file more =>
    replace file : tree.entry? (here ++ [part]) = some (.file content executable) := file
    rw [walk.eq_3 _ _ _ _ _ _ name, if_neg short] at found
    simp only [file, more] at found
    cases found
  | case9 links here part rest name next short target linked last =>
    replace linked : tree.entry? (here ++ [part]) = some (.link target) := linked
    rw [walk.eq_3 _ _ _ _ _ _ name, if_neg short] at found
    simp only [linked, last, if_true] at found
    cases found
    rw [Bool.and_eq_true, List.isEmpty_iff, Bool.not_eq_true'] at last
    rw [last.1]
    exact .stay name (Nat.not_lt.mp short) linked last.2
  | case10 links here part rest name next short target linked onward empty =>
    replace linked : tree.entry? (here ++ [part]) = some (.link target) := linked
    rw [walk.eq_3 _ _ _ _ _ _ name, if_neg short] at found
    simp only [linked, onward, empty, if_true] at found
    cases found
  | case11 here part rest name next short target linked onward given =>
    replace linked : tree.entry? (here ++ [part]) = some (.link target) := linked
    rw [walk.eq_3 _ _ _ _ _ _ name, if_neg short] at found
    simp only [linked, onward, given] at found
    cases found
  | case12 here part rest name next short target linked onward given links path ih =>
    replace linked : tree.entry? (here ++ [part]) = some (.link target) := linked
    rw [walk.eq_3 _ _ _ _ _ _ name, if_neg short] at found
    simp only [linked, onward, given] at found
    exact .through name (Nat.not_lt.mp short) linked onward given (ih found)

theorem Leads.walk_eq {tree : Tree} {follow : Bool} {links : Nat} {here location : Location}
    {parts : List String} (leads : Leads tree follow links here parts location) :
    tree.walk follow links here parts = .ok location := by
  induction leads with
  | done links here => rw [walk]
  | up onward ih => rw [walk_up, ih]
  | @last links here part name short writable =>
    rw [walk.eq_3 _ _ _ _ _ _ name, if_neg (Nat.not_lt.mpr short)]
    cases held : tree.entry? (here ++ [part]) with
    | none => rfl
    | some entry =>
      obtain ⟨content, executable, rfl⟩ := writable entry held
      rfl
  | into name short directory onward ih => rw [walk_into name short directory, ih]
  | stay name short linked unfollowed =>
    rw [walk.eq_3 _ _ _ _ _ _ name, if_neg (Nat.not_lt.mpr short)]
    simp [linked, unfollowed]
  | through name short linked followed given onward ih =>
    rw [walk.eq_3 _ _ _ _ _ _ name, if_neg (Nat.not_lt.mpr short)]
    simp only [linked, followed, given]
    exact ih

def KeepsWays (before after : Tree) : Prop :=
  ∀ place entry, before.entry? place = some entry →
    (∀ content executable, entry ≠ .file content executable) → after.entry? place = some entry

theorem KeepsWays.directory {before after : Tree} {location : Location}
    (ways : KeepsWays before after)
    (held : before.entry? location = some .directory) : after.entry? location = some .directory :=
  ways location .directory held (by simp)

theorem Leads.carry {tree other : Tree} {follow : Bool} {links : Nat} {here location : Location}
    {parts : List String} (leads : Leads tree follow links here parts location)
    (ways : KeepsWays tree other) (ends : tree.Writable location → other.Writable location) :
    Leads other follow links here parts location := by
  induction leads with
  | done links here => exact .done links here
  | up onward ih => exact .up (ih ends)
  | last name short writable => exact .last name short (ends writable)
  | into name short directory onward ih =>
    exact .into name short (ways.directory directory) (ih ends)
  | stay name short linked unfollowed =>
    exact .stay name short (ways _ _ linked (by simp)) unfollowed
  | through name short linked followed given onward ih =>
    exact .through name short (ways _ _ linked (by simp)) followed given (ih ends)

theorem put_file_ways {tree : Tree} {location : Location} (writable : tree.Writable location)
    (content : Text.Bytes) (executable : Bool) :
    KeepsWays tree (tree.put location (.file content executable)) := by
  intro place entry held noFile
  rw [entry?_put_of_ne, held]
  rintro rfl
  obtain ⟨content, executable, same⟩ := writable entry held
  exact noFile content executable same

-- Putting a file where one can be leads no path astray: it can only have ended there.
theorem Leads.put_file {tree : Tree} {place : Location} (writable : tree.Writable place)
    (content : Text.Bytes) (executable : Bool) {follow : Bool} {links : Nat}
    {here location : Location} {parts : List String}
    (leads : Leads tree follow links here parts location) :
    Leads (tree.put place (.file content executable)) follow links here parts location := by
  refine leads.carry (put_file_ways writable content executable) fun free entry held => ?_
  by_cases same : location = place
  · rw [same, entry?_put_self _ _ writable.ne_nil] at held
    exact ⟨content, executable, (Option.some.inj held).symm⟩
  · rw [entry?_put_of_ne _ _ same] at held
    exact free entry held

theorem locate_put_file {tree : Tree} {place location : Location} (writable : tree.Writable place)
    (content : Text.Bytes) (executable : Bool) {cwd : Location} {path : Path}
    (found : tree.locate cwd true path = .ok location) :
    (tree.put place (.file content executable)).locate cwd true path = .ok location :=
  ((leads_of_walk found).put_file writable content executable).walk_eq

theorem Leads.named {tree : Tree} {follow : Bool} {links : Nat} {here location : Location}
    {parts : List String} (leads : Leads tree follow links here parts location)
    {entry : Entry} (present : tree.entry? location = some entry) :
    ∀ part ∈ parts, part = ".." ∨ ∃ named ∈ tree.entries, part ∈ named.1 := by
  have listed : ∀ {here : Location} {part : String} {entry : Entry},
      tree.entry? (here ++ [part]) = some entry → ∃ named ∈ tree.entries, part ∈ named.1 :=
    fun held => ⟨_, mem_entries_of_found (by simp) held, by simp⟩
  induction leads with
  | done links here => exact fun part member => nomatch member
  | up onward ih => exact List.forall_mem_cons.mpr ⟨.inl rfl, ih present⟩
  | last name short writable =>
    exact List.forall_mem_singleton.mpr (.inr (listed present))
  | into name short directory onward ih =>
    exact List.forall_mem_cons.mpr ⟨.inr (listed directory), ih present⟩
  | stay name short linked unfollowed =>
    exact List.forall_mem_singleton.mpr (.inr (listed present))
  | through name short linked followed given onward ih =>
    -- Behind a link the components of its target come first, and then the ones that were left.
    refine List.forall_mem_cons.mpr ⟨.inr (listed linked), fun part member => ?_⟩
    exact ih present part (List.mem_append_right _ member)

theorem status_eq_ok {tree : Tree} {cwd : Location} {path : Path} {entry : Entry} :
    tree.status cwd path = .ok entry ↔
      ∃ location, tree.locate cwd true path = .ok location ∧
        tree.entry? location = some entry := by
  rw [status, Except.bind_eq_ok]
  refine exists_congr fun location => and_congr_right fun _ => ?_
  cases tree.entry? location with
  | none => exact ⟨fun found => (nomatch found), fun held => (nomatch held)⟩
  | some other =>
    exact ⟨fun found => congrArg some (Except.ok.inj found),
      fun held => congrArg Except.ok (Option.some.inj held)⟩

theorem isDirectory_of_located {tree : Tree} {cwd location : Location} {path : Path}
    (located : tree.locate cwd true path = .ok location)
    (directory : tree.entry? location = some .directory) : tree.isDirectory cwd path = .ok true :=
  isDirectory_eq_true.mpr (status_eq_ok.mpr ⟨location, located, directory⟩)

theorem pathExists_of_free {tree : Tree} {cwd location : Location} {path : Path}
    (located : tree.locate cwd true path = .ok location) (free : tree.entry? location = none) :
    tree.pathExists cwd path = .ok false := by
  simp only [pathExists, leadsTo, status, located, bind, Except.bind, free]
  rfl

theorem named_of_status {tree : Tree} {cwd : Location} {path : Path} {entry : Entry}
    (found : tree.status cwd path = .ok entry) :
    ∀ part ∈ path.parts, part = ".." ∨ ∃ named ∈ tree.entries, part ∈ named.1 := by
  obtain ⟨location, located, held⟩ := status_eq_ok.mp found
  exact (leads_of_walk located).named held

theorem readBytes_write {tree : Tree} {cwd : Location} {path : Path} {text : String}
    (succeeds : (write cwd path text).outcome tree = .ok ()) :
    ((write cwd path text).after tree).readBytes cwd path = .ok (Text.utf8 text) := by
  rcases write_cases tree cwd path text with
    ⟨error, fails, -⟩ | ⟨location, executable, located, writable, -, changed⟩
  · rw [fails] at succeeds
    cases succeeds
  · rw [changed, readBytes_eq_ok]
    refine ⟨executable, status_eq_ok.mpr ⟨location, locate_put_file writable _ _ located, ?_⟩⟩
    exact entry?_put_self _ _ writable.ne_nil

theorem write_of_free {tree : Tree} {cwd location : Location} {path : Path}
    (plain : containsNulPart path = false) (located : tree.locate cwd true path = .ok location)
    (free : tree.entry? location = none) (text : String) :
    (write cwd path text).outcome tree = .ok () ∧
      (write cwd path text).after tree = tree.put location (.file (Text.utf8 text) false) := by
  simp only [write, update, plain, Bool.false_eq_true, if_false, outcome_bind, after_bind,
    outcome_get, after_get, located, free]
  exact ⟨rfl, rfl⟩

theorem unlink_of_held {tree : Tree} {cwd location : Location} {path : Path} {entry : Entry}
    (located : tree.locate cwd false path = .ok location) (held : tree.entry? location = some entry)
    (noDirectory : entry ≠ .directory) :
    (unlink cwd path).outcome tree = .ok () ∧
      (unlink cwd path).after tree = tree.erase location := by
  simp only [unlink, outcome_bind, after_bind, outcome_get, after_get, located, held]
  cases entry with
  | directory => exact absurd rfl noDirectory
  | file content executable => exact ⟨rfl, rfl⟩
  | link target => exact ⟨rfl, rfl⟩

theorem makeDirectories_eq {cwd : Location} {path : Path} (plain : containsNulPart path = false)
    (named : path.parts ≠ []) : ∃ parents,
    makeDirectories cwd path = (do
      match (← get).makeDirectory cwd path with
      | .ok tree => set tree
      | .error .missing =>
        makeAll cwd path.anchor parents
        match (← get).makeDirectory cwd path with
        | .ok tree => set tree
        | .error .missing => throw (refused path .missing)
        | .error defect => acceptExisting cwd path defect
      | .error defect => acceptExisting cwd path defect) := by
  cases reversed : path.parts.reverse with
  | nil => exact absurd (List.reverse_eq_nil_iff.mp reversed) named
  | cons part parents =>
    have whole : (⟨path.anchor, (part :: parents).reverse⟩ : Path) = path := by
      rw [← reversed, List.reverse_reverse]
    refine ⟨parents, ?_⟩
    rw [makeDirectories, plain, reversed, makeAll, whole]
    rfl

theorem makeDirectories_of_held {tree : Tree} {cwd location : Location} {path : Path} {entry : Entry}
    (plain : containsNulPart path = false) (named : path.parts ≠ [])
    (located : tree.locate cwd false path = .ok location) (held : tree.entry? location = some entry)
    (present : tree.isDirectory cwd path = .ok true) :
    (makeDirectories cwd path).outcome tree = .ok () ∧
      (makeDirectories cwd path).after tree = tree := by
  have existing : tree.makeDirectory cwd path = .error .alreadyExists := by
    simp only [makeDirectory, located, bind, Except.bind, held]
    rfl
  obtain ⟨parents, unfolded⟩ := @makeDirectories_eq cwd path plain named
  simp only [unfolded, outcome_bind, after_bind, outcome_get, after_get, existing, acceptExisting,
    present]
  exact ⟨rfl, rfl⟩

theorem makeDirectories_of_present {tree : Tree} {cwd location : Location} {path : Path}
    (plain : containsNulPart path = false) (named : path.parts ≠ [])
    (located : ∀ follow, tree.locate cwd follow path = .ok location)
    (directory : tree.entry? location = some .directory) :
    (makeDirectories cwd path).outcome tree = .ok () ∧
      (makeDirectories cwd path).after tree = tree :=
  makeDirectories_of_held plain named (located false) directory
    (isDirectory_of_located (located true) directory)

theorem makeDirectories_of_free {tree : Tree} {cwd location : Location} {path : Path}
    (plain : containsNulPart path = false) (named : path.parts ≠ [])
    (located : tree.locate cwd false path = .ok location) (free : tree.entry? location = none) :
    (makeDirectories cwd path).outcome tree = .ok () ∧
      (makeDirectories cwd path).after tree = tree.put location .directory := by
  have made : tree.makeDirectory cwd path = .ok (tree.put location .directory) := by
    simp only [makeDirectory, located, bind, Except.bind, free]
    rfl
  obtain ⟨parents, unfolded⟩ := @makeDirectories_eq cwd path plain named
  simp only [unfolded, outcome_bind, after_bind, outcome_get, after_get, made]
  exact ⟨rfl, rfl⟩

end FfiBindings.Tree
