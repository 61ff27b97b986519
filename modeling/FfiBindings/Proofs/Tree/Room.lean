import FfiBindings.Proofs.Tree.Ways

set_option autoImplicit false

namespace FfiBindings

open ExceptT

/-- A path that spells the place of a file: absolute, never up, with names the system accepts. -/
structure Path.Proper (path : Path) : Prop where
  rooted : path.isAbsolute = true
  clear : ".." ∉ path.parts
  plain : Tree.containsNulPart path = false
  short : ∀ part ∈ path.parts, part.utf8ByteSize ≤ nameLimit

theorem Path.Proper.parent {path : Path} (proper : path.Proper) : path.parent.Proper where
  rooted := proper.rooted
  clear member := proper.clear (List.dropLast_subset _ member)
  plain := by
    have plain := proper.plain
    simp only [Tree.containsNulPart, List.any_eq_false] at plain ⊢
    exact fun part member => plain part (List.dropLast_subset _ member)
  short part member := proper.short part (List.dropLast_subset _ member)

theorem Path.location_of_clear {path : Path} (clear : ".." ∉ path.parts) :
    path.location = path.parts :=
  Location.steps_of_names fun _ member up => clear (up ▸ member)

namespace Tree

variable {tree other : Tree} {follow : Bool} {links : Nat} {cwd here location : Location}
  {parts : List String} {path : Path}

theorem inside_iff : tree.Inside location ↔
    tree.Inside location.dropLast ∧ tree.entry? location = some .directory := by
  constructor
  · exact fun inside => ⟨inside.dropLast, inside location List.prefix_rfl⟩
  · rintro ⟨above, directory⟩
    rcases List.eq_nil_or_concat location with rfl | ⟨upper, part, rfl⟩
    · exact above
    · rw [List.concat_eq_append] at *
      rw [List.dropLast_concat] at above
      exact above.concat directory

theorem walk_eq_ok_iff (unlinked : tree.Unlinked) (inside : tree.Inside here)
    (clear : ".." ∉ parts) :
    tree.walk follow links here parts = .ok location ↔
      location = here ++ parts ∧ (∀ part ∈ parts, part.utf8ByteSize ≤ nameLimit) ∧
        tree.Inside (here ++ parts.dropLast) := by
  induction parts generalizing here with
  | nil =>
    rw [walk]
    simp [inside, eq_comm]
  | cons part rest ih =>
    rw [List.mem_cons, not_or] at clear
    have name : part ≠ ".." := Ne.symm clear.1
    constructor
    · intro found
      obtain ⟨short, ⟨rfl, rfl⟩ | ⟨directory, onward⟩⟩ := walk_name_cases unlinked name found
      · simp [short, inside]
      · obtain ⟨rfl, others, deeper⟩ := (ih (inside.concat directory) clear.2).mp onward
        refine ⟨by simp, List.forall_mem_cons.mpr ⟨short, others⟩, ?_⟩
        cases rest with
        | nil => simpa using inside
        | cons next rest => simpa using deeper
    · rintro ⟨rfl, short, deeper⟩
      rw [List.forall_mem_cons] at short
      -- At the end of the path anything may stand, and nothing; before that, directories only.
      cases rest with
      | nil =>
        cases held : tree.entry? (here ++ [part]) with
        | none => exact (Leads.last name short.1 (writable_of_free held)).walk_eq
        | some entry =>
          cases entry with
          | file content executable =>
            exact (Leads.last name short.1 (writable_of_file held)).walk_eq
          | directory => exact (Leads.into name short.1 held (.done _ _)).walk_eq
          | link target => exact absurd held (unlinked _ target)
      | cons next rest =>
        rw [List.dropLast_cons_cons, List.append_cons] at deeper
        have directory := deeper (here ++ [part]) (List.prefix_append _ _)
        rw [walk_into name short.1 directory]
        exact (ih (inside.concat directory) clear.2).mpr ⟨by simp, short.2, deeper⟩

theorem locate_eq_ok_iff (unlinked : tree.Unlinked) (rooted : path.isAbsolute = true)
    (clear : ".." ∉ path.parts) :
    tree.locate cwd follow path = .ok location ↔
      location = path.parts ∧ (∀ part ∈ path.parts, part.utf8ByteSize ≤ nameLimit) ∧
        tree.Inside path.parts.dropLast := by
  rw [locate, startOf, if_pos rooted, walk_eq_ok_iff unlinked (inside_nil tree) clear,
    List.nil_append, List.nil_append]

theorem OnWay.prefix_parts {place : Location} (onWay : OnWay cwd path place)
    (rooted : path.isAbsolute = true) (clear : ".." ∉ path.parts) : place <+: path.parts := by
  obtain ⟨upper, begins, rfl⟩ := onWay
  have names : ∀ part ∈ upper, part ≠ ".." :=
    fun part member up => clear (begins.subset (up ▸ member))
  rwa [startOf, if_pos rooted, Location.steps_of_names names, List.nil_append]

theorem locate_proper (proper : path.Proper) (unlinked : tree.Unlinked)
    (inside : tree.Inside path.parts.dropLast) :
    tree.locate cwd follow path = .ok path.parts :=
  (locate_eq_ok_iff unlinked proper.rooted proper.clear).mpr ⟨rfl, proper.short, inside⟩

theorem walk_missing (fits : Fits tree other) (clear : ".." ∉ parts)
    (short : ∀ part ∈ parts, part.utf8ByteSize ≤ nameLimit) (inside : tree.Inside here)
    (deeper : other.Inside (here ++ parts.dropLast))
    (outside : ¬ tree.Inside (here ++ parts.dropLast)) :
    tree.walk follow links here parts = .error .missing := by
  induction parts generalizing here with
  | nil => exact absurd (by simpa using inside) outside
  | cons part rest ih =>
    cases rest with
    | nil => exact absurd (by simpa using inside) outside
    | cons next rest =>
      rw [List.mem_cons, not_or] at clear
      rw [List.forall_mem_cons] at short
      rw [List.dropLast_cons_cons, List.append_cons] at deeper outside
      have directory := deeper (here ++ [part]) (List.prefix_append _ _)
      -- The larger tree has a directory here, so the smaller one has that or nothing.
      rcases fits.of_directory directory with free | present
      · rw [walk.eq_3 _ _ _ _ _ _ (Ne.symm clear.1), if_neg (Nat.not_lt.mpr short.1)]
        simp [free]
      · rw [walk_into (Ne.symm clear.1) short.1 present]
        exact ih clear.2 short.2 (inside.concat present) deeper outside

def attempt (cwd : Location) (path : Path) (otherwise : TreeM Unit) : TreeM Unit := do
  match (← get).makeDirectory cwd path with
  | .ok tree => set tree
  | .error .missing => otherwise
  | .error defect => acceptExisting cwd path defect

theorem makeAll_cons (cwd : Location) (anchor : Anchor) (part : String) (parents : List String)
    {path : Path} (spelled : path = ⟨anchor, (part :: parents).reverse⟩) :
    makeAll cwd anchor (part :: parents) = attempt cwd path (do
      makeAll cwd anchor parents
      attempt cwd path (throw (refused path .missing))) := by
  subst spelled
  rfl

theorem inside_put_directory (above : tree.Inside location.dropLast)
    (free : tree.entry? location = none) : (tree.put location .directory).Inside location := by
  have named : location ≠ [] := by
    rintro rfl
    simp at free
  refine inside_iff.mpr ⟨fun upper begins => ?_, entry?_put_self _ _ named⟩
  rw [entry?_put_of_ne]
  · exact above upper begins
  · rintro rfl
    have directory := above upper begins
    rw [free] at directory
    cases directory

theorem attempt_of_inside (proper : path.Proper) (unlinked : tree.Unlinked)
    (inside : tree.Inside path.parts.dropLast)
    (free : tree.entry? path.parts = none ∨ tree.entry? path.parts = some .directory)
    (otherwise : TreeM Unit) :
    (attempt cwd path otherwise).outcome tree = .ok () ∧
      ((attempt cwd path otherwise).after tree).Inside path.parts := by
  have located : ∀ {follow : Bool}, tree.locate cwd follow path = .ok path.parts :=
    locate_proper proper unlinked inside
  rcases free with free | directory
  · have made : tree.makeDirectory cwd path = .ok (tree.put path.parts .directory) := by
      simp only [makeDirectory, located, bind, Except.bind, free]
      rfl
    simp only [attempt, outcome_bind, after_bind, outcome_get, after_get, made]
    exact ⟨rfl, inside_put_directory inside free⟩
  · have existing : tree.makeDirectory cwd path = .error .alreadyExists := by
      simp only [makeDirectory, located, bind, Except.bind, directory]
      rfl
    have present := isDirectory_of_located located directory
    simp only [attempt, outcome_bind, after_bind, outcome_get, after_get, existing, acceptExisting,
      present]
    exact ⟨rfl, inside_iff.mpr ⟨inside, directory⟩⟩

theorem attempt_eq_ok (unlinked : tree.Unlinked) (rooted : path.isAbsolute = true)
    (clear : ".." ∉ path.parts) {otherwise : TreeM Unit}
    (succeeds : (attempt cwd path otherwise).outcome tree = .ok ()) :
    ((∀ part ∈ path.parts, part.utf8ByteSize ≤ nameLimit) ∧
        ((attempt cwd path otherwise).after tree).Inside path.parts) ∨
      (otherwise.outcome tree = .ok () ∧
        (attempt cwd path otherwise).after tree = otherwise.after tree) := by
  -- An attempt that failed is forgiven only if there is a directory already.
  have accepted : ∀ defect, (acceptExisting cwd path defect).outcome tree = .ok () →
      (∀ part ∈ path.parts, part.utf8ByteSize ≤ nameLimit) ∧ tree.Inside path.parts := by
    intro defect ended
    have present : tree.isDirectory cwd path = .ok true := by
      simp only [acceptExisting, outcome_bind, outcome_get, after_get] at ended
      cases asked : tree.isDirectory cwd path with
      | error error =>
        rw [asked] at ended
        cases ended
      | ok answer =>
        rw [asked] at ended
        cases answer with
        | false => cases ended
        | true => rfl
    obtain ⟨place, located, directory⟩ := status_eq_ok.mp (isDirectory_eq_true.mp present)
    obtain ⟨rfl, short, above⟩ := (locate_eq_ok_iff unlinked rooted clear).mp located
    exact ⟨short, inside_iff.mpr ⟨above, directory⟩⟩
  unfold attempt at succeeds ⊢
  simp only [outcome_bind, after_bind, outcome_get, after_get] at succeeds ⊢
  cases made : tree.makeDirectory cwd path with
  | ok grown =>
    obtain ⟨place, located, free⟩ := Except.bind_eq_ok.mp made
    obtain ⟨rfl, short, above⟩ := (locate_eq_ok_iff unlinked rooted clear).mp located
    split at free
    · cases free
    · next free' =>
      obtain rfl := Except.ok.inj free
      exact .inl ⟨short, inside_put_directory above free'⟩
  | error defect =>
    rw [made] at succeeds
    cases defect with
    | missing => exact .inr ⟨succeeds, rfl⟩
    | badFormat | notPermitted | alreadyExists | notDirectory | isDirectory | nameTooLong | notEmpty
      | linkLoop =>
      simp only [acceptExisting_after]
      exact .inl (accepted _ succeeds)

theorem makeAll_inside (unlinked : tree.Unlinked) {anchor : Anchor} (rooted : anchor ≠ .here)
    (clear : ".." ∉ parts) (succeeds : (makeAll cwd anchor parts).outcome tree = .ok ()) :
    (∀ part ∈ parts, part.utf8ByteSize ≤ nameLimit) ∧
      ((makeAll cwd anchor parts).after tree).Inside parts.reverse := by
  cases parts with
  | nil => exact ⟨by simp, inside_nil _⟩
  | cons part parents =>
    generalize spelled : (⟨anchor, (part :: parents).reverse⟩ : Path) = path
    have absolute : path.isAbsolute = true := by
      rw [← spelled]
      simpa [Path.isAbsolute] using rooted
    have names : path.parts = (part :: parents).reverse := by rw [← spelled]
    have upless : ".." ∉ path.parts := by
      rw [names, List.mem_reverse]
      exact clear
    rw [makeAll_cons cwd anchor part parents spelled.symm] at succeeds ⊢
    rw [← names]
    have short : (∀ part ∈ path.parts, part.utf8ByteSize ≤ nameLimit) →
        ∀ name ∈ part :: parents, name.utf8ByteSize ≤ nameLimit := by
      intro all name member
      exact all name (by rwa [names, List.mem_reverse])
    rcases attempt_eq_ok unlinked absolute upless succeeds with ⟨all, inside⟩ | ⟨again, after⟩
    · exact ⟨short all, inside⟩
    · -- The directories above were missing: they were made, and a second attempt came to its end.
      obtain ⟨_, -, second, afterSecond⟩ := outcome_bind_eq_ok again
      have stillUnlinked := (@makeAll_edits (fun _ => False) tree unlinked cwd anchor parents).unlinked
        unlinked
      rw [after, afterSecond]
      rcases attempt_eq_ok stillUnlinked absolute upless second with ⟨all, inside⟩ | ⟨failed, -⟩
      · exact ⟨short all, inside⟩
      · cases failed

theorem makeDirectories_inside (unlinked : tree.Unlinked) (rooted : path.isAbsolute = true)
    (clear : ".." ∉ path.parts) (succeeds : (makeDirectories cwd path).outcome tree = .ok ()) :
    path.Proper ∧ ((makeDirectories cwd path).after tree).Inside path.parts := by
  unfold makeDirectories at succeeds ⊢
  cases plain : containsNulPart path with
  | true =>
    rw [plain] at succeeds
    cases succeeds
  | false =>
    rw [plain] at succeeds
    have anchor : path.anchor ≠ .here := by simpa [Path.isAbsolute] using rooted
    obtain ⟨short, inside⟩ := makeAll_inside unlinked anchor (by simpa using clear) succeeds
    rw [List.reverse_reverse] at inside
    exact ⟨⟨rooted, clear, plain, by simpa using short⟩, inside⟩

section Fitting

variable (unlinked : other.Unlinked) (fits : Fits tree other)

include unlinked fits

theorem makeAll_stays {anchor : Anchor} (proper : Path.Proper ⟨anchor, parts.reverse⟩)
    (inside : other.Inside parts.reverse) : Fits ((makeAll cwd anchor parts).after tree) other := by
  have edits := @makeAll_edits (fun _ => False) tree (fits.unlinked unlinked) cwd anchor parts
  refine edits.fits fits (fun _ => False.elim) fun place onWay => ?_
  exact inside place (onWay.prefix_parts proper.rooted proper.clear)

theorem makeAll_fits {anchor : Anchor} (proper : Path.Proper ⟨anchor, parts.reverse⟩)
    (inside : other.Inside parts.reverse) :
    (makeAll cwd anchor parts).outcome tree = .ok () ∧
      ((makeAll cwd anchor parts).after tree).Inside parts.reverse := by
  induction parts generalizing tree with
  | nil => exact ⟨rfl, inside_nil _⟩
  | cons part parents ih =>
    generalize spelled : (⟨anchor, (part :: parents).reverse⟩ : Path) = path at proper
    have names : path.parts = (part :: parents).reverse := by rw [← spelled]
    have above : path.parts.dropLast = parents.reverse := by simp [names]
    have upper : Path.Proper ⟨anchor, parents.reverse⟩ := by
      have parent := proper.parent
      rwa [← spelled, Path.parent, List.reverse_cons, List.dropLast_concat] at parent
    rw [← names] at inside ⊢
    have upperInside : other.Inside parents.reverse := above ▸ inside.dropLast
    have directory := inside path.parts List.prefix_rfl
    rw [makeAll_cons cwd anchor part parents spelled.symm]
    -- With the directory above in place the first attempt is enough, else there is a second one.
    by_cases present : tree.Inside path.parts.dropLast
    · exact attempt_of_inside proper (fits.unlinked unlinked) present
        (fits.of_directory directory) _
    · have missing : tree.makeDirectory cwd path = .error .missing := by
        have lost : tree.locate cwd false path = .error .missing := by
          rw [locate, startOf, if_pos proper.rooted]
          exact walk_missing fits proper.clear proper.short (inside_nil tree) inside.dropLast
            present
        simp only [makeDirectory, lost]
        rfl
      obtain ⟨ended, made⟩ := ih fits upper upperInside
      have stillFits : Fits ((makeAll cwd anchor parents).after tree) other :=
        makeAll_stays unlinked fits upper upperInside
      have retried := @attempt_of_inside _ cwd path proper (stillFits.unlinked unlinked)
        (above ▸ made) (stillFits.of_directory directory) (throw (refused path .missing))
      rw [attempt]
      simp only [outcome_bind, after_bind, outcome_get, after_get, missing, ended]
      exact retried

theorem makeDirectories_fits (proper : path.Proper) (inside : other.Inside path.parts) :
    (makeDirectories cwd path).outcome tree = .ok () ∧
      ((makeDirectories cwd path).after tree).Inside path.parts := by
  have whole : Path.Proper ⟨path.anchor, path.parts.reverse.reverse⟩ := by
    rwa [List.reverse_reverse]
  have made := @makeAll_fits tree other cwd path.parts.reverse unlinked fits path.anchor whole
  rw [List.reverse_reverse] at made
  unfold makeDirectories
  rw [proper.plain]
  exact made inside

theorem write_fits (proper : path.Proper) (inside : tree.Inside path.parts.dropLast)
    {content : Text.Bytes} {executable : Bool}
    (held : other.entry? path.parts = some (.file content executable)) (text : String) :
    (write cwd path text).outcome tree = .ok () := by
  have located : tree.locate cwd true path = .ok path.parts :=
    locate_proper proper (fits.unlinked unlinked) inside
  have writable := fits.writable held
  simp only [write, update, proper.plain, Bool.false_eq_true, if_false, outcome_bind, outcome_get,
    after_get, located]
  cases present : tree.entry? path.parts with
  | none => rfl
  | some entry =>
    obtain ⟨content, executable, rfl⟩ := writable entry present
    rfl

end Fitting

theorem walk_congr (unlinked : tree.Unlinked) (clear : ".." ∉ parts)
    (same : ∀ upper, upper <+: here ++ parts → tree.entry? upper = other.entry? upper) :
    tree.walk follow links here parts = other.walk follow links here parts := by
  induction parts generalizing here with
  | nil => rw [walk, walk]
  | cons part rest ih =>
    rw [List.mem_cons, not_or] at clear
    rw [List.append_cons] at same
    have next := same (here ++ [part]) (List.prefix_append _ _)
    rw [walk.eq_3 _ _ _ _ _ _ (Ne.symm clear.1), walk.eq_3 _ _ _ _ _ _ (Ne.symm clear.1), ← next]
    split
    · rfl
    · cases held : tree.entry? (here ++ [part]) with
      | none => rfl
      | some entry =>
        cases entry with
        | file content executable => rfl
        | directory => exact ih clear.2 same
        | link target => exact absurd held (unlinked _ target)

theorem status_congr (unlinked : tree.Unlinked) (rooted : path.isAbsolute = true)
    (clear : ".." ∉ path.parts)
    (same : ∀ upper, upper <+: path.parts → tree.entry? upper = other.entry? upper) :
    tree.status cwd path = other.status cwd path := by
  have located : tree.locate cwd true path = other.locate cwd true path := by
    rw [locate, locate, startOf, if_pos rooted]
    exact walk_congr unlinked clear same
  rw [status, status, ← located]
  cases found : tree.locate cwd true path with
  | error defect => rfl
  | ok place =>
    obtain ⟨rfl, -, -⟩ := (locate_eq_ok_iff unlinked rooted clear).mp found
    simp only [bind, Except.bind, same path.parts List.prefix_rfl]

theorem resolveFrom_congr (unlinked : tree.Unlinked) (alsoUnlinked : other.Unlinked)
    (depth bound : Nat) (active others : List Location) :
    tree.resolveFrom depth active here parts = other.resolveFrom bound others here parts := by
  induction parts generalizing here with
  | nil => rw [resolveFrom, resolveFrom]
  | cons part rest ih =>
    by_cases up : part = ".."
    · subst up
      rw [resolveFrom, resolveFrom]
      exact ih
    · rw [resolveFrom.eq_3 _ _ _ _ _ _ up, resolveFrom.eq_3 _ _ _ _ _ _ up]
      simp only
      split
      · rfl
      · split
        · next target linked => exact absurd linked (unlinked _ target)
        · split
          · next target linked => exact absurd linked (alsoUnlinked _ target)
          · exact ih

theorem resolve_congr (unlinked : tree.Unlinked) (alsoUnlinked : other.Unlinked) (cwd : Location)
    (path : Path) : tree.resolve cwd path = other.resolve cwd path := by
  have same := @resolveFrom_congr tree other (startOf path cwd) path.parts unlinked alsoUnlinked
    tree.linkCount other.linkCount [] []
  unfold resolve
  rcases resolveFrom_eq_steps unlinked tree.linkCount [] (startOf path cwd) path.parts with
    found | nul
  · rw [← same, found]
  · rw [← same, nul]

theorem walk_ne_nameTooLong (unlinked : tree.Unlinked)
    (short : ∀ part ∈ parts, part.utf8ByteSize ≤ nameLimit) :
    tree.walk follow links here parts ≠ .error .nameTooLong := by
  induction parts generalizing here with
  | nil =>
    rw [walk]
    simp
  | cons part rest ih =>
    rw [List.forall_mem_cons] at short
    by_cases up : part = ".."
    · subst up
      rw [walk_up]
      exact ih short.2
    · rw [walk.eq_3 _ _ _ _ _ _ up, if_neg (Nat.not_lt.mpr short.1)]
      simp only
      split
      · split <;> simp
      · exact ih short.2
      · split <;> simp
      · next target linked => exact absurd linked (unlinked _ target)

-- Only a name that is too long keeps a question about a path from being answered.
theorem leadsTo_of_short (unlinked : tree.Unlinked)
    (short : ∀ part ∈ path.parts, part.utf8ByteSize ≤ nameLimit) (property : Entry → Bool) :
    ∃ answer, tree.leadsTo cwd path property = .ok answer := by
  unfold leadsTo
  split
  · exact ⟨_, rfl⟩
  · next failed =>
    exfalso
    unfold status at failed
    cases located : tree.locate cwd true path with
    | error defect =>
      rw [located] at failed
      obtain rfl : defect = .nameTooLong := Except.error.inj failed
      exact walk_ne_nameTooLong unlinked short located
    | ok place =>
      simp only [located, bind, Except.bind] at failed
      split at failed <;> cases failed
  · exact ⟨_, rfl⟩

theorem walk_long {above : List String} {name : String} (clear : ".." ∉ above)
    (inside : tree.Inside (here ++ above)) (long : nameLimit < name.utf8ByteSize) :
    tree.walk follow links here (above ++ [name]) = .error .nameTooLong := by
  induction above generalizing here with
  | nil =>
    have named : name ≠ ".." := by
      rintro rfl
      exact absurd long (by decide)
    rw [List.nil_append, walk.eq_3 _ _ _ _ _ _ named, if_pos long]
  | cons part rest ih =>
    rw [List.mem_cons, not_or] at clear
    rw [List.append_cons] at inside
    have directory := inside (here ++ [part]) (List.prefix_append _ _)
    by_cases short : part.utf8ByteSize ≤ nameLimit
    · rw [List.cons_append, walk_into (Ne.symm clear.1) short directory]
      exact ih clear.2 inside
    · rw [List.cons_append, walk.eq_3 _ _ _ _ _ _ (Ne.symm clear.1),
        if_pos (Nat.lt_of_not_le short)]

theorem leadsTo_of_long {above : List String} {name : String} (rooted : path.isAbsolute = true)
    (plain : containsNulPart path = false) (parts : path.parts = above ++ [name])
    (clear : ".." ∉ above) (inside : tree.Inside above) (long : nameLimit < name.utf8ByteSize)
    (property : Entry → Bool) :
    tree.leadsTo cwd path property = .error (refused path .nameTooLong) := by
  have status : tree.status cwd path = .error .nameTooLong := by
    rw [status, locate, startOf, if_pos rooted, parts, walk_long clear (by simpa using inside) long]
    rfl
  simp only [leadsTo, status, plain]
  rfl

section Removing

variable (unlinked : tree.Unlinked) (rooted : path.isAbsolute = true) (clear : ".." ∉ path.parts)

include unlinked rooted clear

theorem located_of_status {entry : Entry} (found : tree.status cwd path = .ok entry) :
    tree.locate cwd follow path = .ok path.parts ∧ tree.entry? path.parts = some entry ∧
      tree.Inside path.parts.dropLast ∧ ∀ part ∈ path.parts, part.utf8ByteSize ≤ nameLimit := by
  obtain ⟨place, located, held⟩ := status_eq_ok.mp found
  obtain ⟨rfl, short, above⟩ := (locate_eq_ok_iff unlinked rooted clear).mp located
  exact ⟨(locate_eq_ok_iff unlinked rooted clear).mpr ⟨rfl, short, above⟩, held, above, short⟩

theorem placed_of_readBytes {bytes : Text.Bytes} (plain : containsNulPart path = false)
    (read : tree.readBytes cwd path = .ok bytes) :
    path.Proper ∧ tree.Inside path.parts.dropLast ∧
      ∃ executable, tree.entry? path.parts = some (.file bytes executable) := by
  obtain ⟨executable, status⟩ := readBytes_eq_ok.mp read
  obtain ⟨-, held, above, short⟩ := @located_of_status tree true cwd path unlinked rooted clear _
    status
  exact ⟨⟨rooted, clear, plain, short⟩, above, executable, held⟩

theorem isDirectory_ne_true (fits : Fits tree other) {content : Text.Bytes} {executable : Bool}
    (held : other.entry? path.parts = some (.file content executable)) :
    tree.isDirectory cwd path ≠ .ok true := by
  intro present
  obtain ⟨-, directory, -, -⟩ := @located_of_status tree true cwd path unlinked rooted clear _
    (isDirectory_eq_true.mp present)
  obtain ⟨_, _, same⟩ := fits.writable held _ directory
  cases same

theorem unlink_of_status {entry : Entry} (found : tree.status cwd path = .ok entry)
    (noDirectory : entry ≠ .directory) : (unlink cwd path).outcome tree = .ok () := by
  obtain ⟨located, held, -, -⟩ := @located_of_status tree false cwd path unlinked rooted clear _ found
  simp only [unlink, outcome_bind, outcome_get, after_get, located, held]
  cases entry with
  | file content executable => rfl
  | directory => exact absurd rfl noDirectory
  | link target => rfl

theorem removeTree_of_directory (named : path.parts ≠ [])
    (present : tree.isDirectory cwd path = .ok true) :
    (removeTree cwd path).outcome tree = .ok () := by
  obtain ⟨located, held, above, short⟩ := @located_of_status tree false cwd path unlinked rooted
    clear _ (isDirectory_eq_true.mp present)
  -- Emptying the directory leaves the way to it, so it is found once more to be removed itself.
  have emptied : ∀ upper, upper <+: path.parts →
      Tree.entry? (tree.eraseBelow path.parts) upper = tree.entry? upper := by
    intro upper begins
    rw [entry?_eraseBelow, if_neg]
    intro below
    obtain ⟨alsoBegins, other⟩ := Location.strictlyCovers_iff.mp below
    exact other (alsoBegins.eq_of_length_le begins.length_le)
  have stillAbove : (tree.eraseBelow path.parts).Inside path.parts.dropLast := by
    intro upper begins
    rw [emptied upper (begins.trans (List.dropLast_prefix _))]
    exact above upper begins
  have stillLocated : (tree.eraseBelow path.parts).locate cwd false path = .ok path.parts :=
    (locate_eq_ok_iff (unlinked.eraseBelow _) rooted clear).mpr ⟨rfl, short, stillAbove⟩
  have ends : endsInName path = true := by
    unfold endsInName
    rw [List.getLast?_eq_some_getLast named]
    have notUp : path.parts.getLast named ≠ ".." :=
      fun up => clear (up ▸ List.getLast_mem named)
    simpa using notUp
  simp only [removeTree, removeDirectory, outcome_bind, outcome_get, after_get, outcome_set,
    after_set, located, held, stillLocated, emptied path.parts List.prefix_rfl, ends]
  rfl

end Removing

end Tree

end FfiBindings
