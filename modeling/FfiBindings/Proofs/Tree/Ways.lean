import Mathlib.Order.Defs.Unbundled
import FfiBindings.Proofs.Tree.Content

set_option autoImplicit false

namespace FfiBindings

def Entry.Alike : Entry → Entry → Prop
  | .file _ _, .file _ _ => True
  | first, second => first = second

@[simp] theorem Entry.alike_refl (entry : Entry) : entry.Alike entry := by
  cases entry <;> simp [Alike]

theorem Entry.Alike.trans {first second third : Entry} (alike : first.Alike second)
    (alike' : second.Alike third) : first.Alike third := by
  cases first <;> cases second <;> cases third <;> simp_all [Alike]

theorem Entry.Alike.eq_of_not_file {first second : Entry} (alike : first.Alike second)
    (noFile : ∀ content executable, first ≠ .file content executable) : second = first := by
  cases first <;> cases second <;> simp_all [Alike]

namespace Tree

variable {tree other before middle after : Tree} {follow : Bool} {links : Nat}
  {here location : Location} {parts : List String}

instance : IsPreorder Tree KeepsWays where
  refl _ _ _ held _ := held
  trans _ _ _ first second place entry held noFile :=
    second place entry (first place entry held noFile) noFile

theorem KeepsWays.inside (ways : KeepsWays before after) (inside : before.Inside location) :
    after.Inside location :=
  fun upper above => ways.directory (inside upper above)

/-- Whatever stands in the first tree has its like in the second. -/
def Fits (tree other : Tree) : Prop :=
  ∀ place entry, tree.entry? place = some entry →
    ∃ like, other.entry? place = some like ∧ entry.Alike like

instance : IsPreorder Tree Fits where
  refl _ _ entry held := ⟨entry, held, entry.alike_refl⟩
  trans _ _ _ first second place entry held := by
    obtain ⟨like, also, alike⟩ := first place entry held
    obtain ⟨last, again, alike'⟩ := second place like also
    exact ⟨last, again, alike.trans alike'⟩

theorem Fits.ways (fits : Fits tree other) : KeepsWays tree other := by
  intro place entry held noFile
  obtain ⟨like, also, alike⟩ := fits place entry held
  rw [also, alike.eq_of_not_file noFile]

theorem Fits.file (fits : Fits tree other) {content : Text.Bytes} {executable : Bool}
    (held : tree.entry? location = some (.file content executable)) :
    ∃ content executable, other.entry? location = some (.file content executable) := by
  obtain ⟨like, also, alike⟩ := fits location _ held
  cases like with
  | file content executable => exact ⟨content, executable, also⟩
  | directory => cases alike
  | link target => cases alike

theorem Fits.of_directory (fits : Fits tree other)
    (directory : other.entry? location = some .directory) :
    tree.entry? location = none ∨ tree.entry? location = some .directory := by
  cases held : tree.entry? location with
  | none => exact .inl rfl
  | some entry =>
    obtain ⟨like, also, alike⟩ := fits location entry held
    obtain rfl := Option.some.inj (directory.symm.trans also)
    cases entry with
    | directory => exact .inr rfl
    | file content executable => cases alike
    | link target => cases alike

theorem Fits.writable (fits : Fits tree other) {content : Text.Bytes} {executable : Bool}
    (held : other.entry? location = some (.file content executable)) : tree.Writable location := by
  intro entry present
  obtain ⟨like, also, alike⟩ := fits location entry present
  obtain rfl := Option.some.inj (held.symm.trans also)
  cases entry with
  | file content executable => exact ⟨content, executable, rfl⟩
  | directory => cases alike
  | link target => cases alike

theorem Fits.unlinked (fits : Fits tree other) (unlinked : other.Unlinked) : tree.Unlinked :=
  fun place target held => unlinked place target (fits.ways place _ held (by simp))

theorem Leads.fits (leads : Leads tree follow links here parts location) (fits : Fits tree other)
    {entry : Entry} (present : tree.entry? location = some entry) :
    Leads other follow links here parts location := by
  refine leads.carry fits.ways fun writable => ?_
  obtain ⟨content, executable, rfl⟩ := writable entry present
  obtain ⟨content, executable, also⟩ := fits.file present
  exact writable_of_file also

theorem Leads.followed (leads : Leads tree false links here parts location) {entry : Entry}
    (present : tree.entry? location = some entry) (noLink : ∀ target, entry ≠ .link target) :
    Leads tree true links here parts location := by
  induction leads with
  | done links here => exact .done links here
  | up onward ih => exact .up (ih present)
  | last name short writable => exact .last name short writable
  | into name short directory onward ih => exact .into name short directory (ih present)
  | stay name short linked unfollowed =>
    exact absurd (Option.some.inj (present.symm.trans linked)) (noLink _)
  | through name short linked followed given onward ih =>
    exact .through name short linked (by simp) given (ih present)

theorem fits_of_subset {smaller : Tree}
    (within : ∀ place entry, smaller.entry? place = some entry → tree.entry? place = some entry) :
    Fits smaller tree :=
  fun place entry held => ⟨entry, within place entry held, entry.alike_refl⟩

theorem erase_fits (tree : Tree) (location : Location) : Fits (tree.erase location) tree :=
  fits_of_subset fun _ _ => entry?_of_erase

theorem eraseBelow_fits (tree : Tree) (location : Location) :
    Fits (tree.eraseBelow location) tree := by
  apply fits_of_subset
  intro place entry held
  rw [entry?_eraseBelow] at held
  split at held
  · cases held
  · exact held

theorem put_file_fits (writable : tree.Writable location) (content : Text.Bytes)
    (executable : Bool) : Fits tree (tree.put location (.file content executable)) := by
  intro place entry held
  by_cases here : place = location
  · subst here
    obtain ⟨own, mode, rfl⟩ := writable entry held
    exact ⟨_, entry?_put_self _ _ writable.ne_nil, trivial⟩
  · exact ⟨entry, (entry?_put_of_ne _ _ here).trans held, entry.alike_refl⟩

theorem Openings.fits {cwd : Location} {path : Path} (openings : Openings cwd path before after) :
    Fits before after := by
  induction openings with
  | refl => exact refl before
  | tail _ opening ih =>
    apply IsTrans.trans _ _ _ ih
    cases opening with
    | make _ _ free =>
      apply fits_of_subset
      intro location entry held
      rw [entry?_put_of_ne, held]
      rintro rfl
      cases free.symm.trans held

def SameAt (keep : Location → Bool) (before after : Tree) : Prop :=
  (after.entries.filter fun entry => keep entry.1) =
    before.entries.filter fun entry => keep entry.1

variable {keep : Location → Bool}

instance (keep : Location → Bool) : IsPreorder Tree (SameAt keep) where
  refl _ := rfl
  trans _ _ _ first second := second.trans first

theorem SameAt.entry_eq (same : SameAt keep before after) (kept : keep location = true) :
    after.entry? location = before.entry? location := by
  by_cases root : location = []
  · subst root
    rfl
  · have listed := congrArg (List.lookup location) same
    rw [lookup_filter_keys keep, lookup_filter_keys keep, kept] at listed
    rw [entry?_of_ne_nil _ root, entry?_of_ne_nil _ root]
    exact listed

theorem sameAt_filter {removed : Location → Bool}
    (gone : ∀ place, removed place = true → keep place = false) :
    SameAt keep tree { entries := tree.entries.filter fun entry => !removed entry.1 } := by
  rw [SameAt, List.filter_filter]
  apply List.filter_congr
  intro entry _
  cases taken : removed entry.1 with
  | true => simp [gone _ taken]
  | false => simp

theorem sameAt_erase (outside : keep location = false) :
    SameAt keep tree (tree.erase location) := by
  have gone : ∀ place, (place == location) = true → keep place = false := by
    intro place here
    rw [beq_iff_eq.mp here, outside]
  exact sameAt_filter gone

theorem sameAt_eraseBelow
    (outside : ∀ lower, location.strictlyCovers lower = true → keep lower = false) :
    SameAt keep tree (tree.eraseBelow location) :=
  sameAt_filter outside

theorem sameAt_put (outside : keep location = false) (entry : Entry) :
    SameAt keep tree (tree.put location entry) := by
  have erased : SameAt keep tree (tree.erase location) := sameAt_erase outside
  rw [SameAt, put, List.filter_cons_of_neg (by simp [outside])]
  exact erased

variable {files ways : Location → Prop}

theorem Edits.keepsWays (edits : Edits files ways before after) : KeepsWays before after := by
  induction edits with
  | refl => exact refl before
  | tail _ edit ih =>
    apply IsTrans.trans _ _ _ ih
    cases edit with
    | put _ writable => exact put_file_ways writable _ _
    | take _ held =>
      intro place entry present noFile
      rw [entry?_erase_of_ne, present]
      rintro rfl
      exact noFile _ _ (Option.some.inj (present.symm.trans held))
    | make _ free =>
      intro place entry present _
      rw [entry?_put_of_ne, present]
      rintro rfl
      cases free.symm.trans present

theorem Edits.file (edits : Edits files ways before after) {content : Text.Bytes}
    {executable : Bool} (held : before.entry? location = some (.file content executable))
    (spared : ¬ files location) : after.entry? location = some (.file content executable) := by
  induction edits with
  | refl => exact held
  | tail _ edit ih =>
    rw [← ih]
    cases edit with
    | put chosen => exact entry?_put_of_ne _ _ fun here => spared (here ▸ chosen)
    | take chosen => exact entry?_erase_of_ne _ fun here => spared (here ▸ chosen)
    | make _ free =>
      -- Directories are made in free places, and here is a file.
      apply entry?_put_of_ne
      rintro rfl
      cases free.symm.trans ih

theorem Edits.status_file (edits : Edits files ways before after) (unlinked : before.Unlinked)
    {cwd : Location} {path : Path} {content : Text.Bytes} {executable : Bool}
    (spared : ¬ files (placeAt cwd path))
    (status : before.status cwd path = .ok (.file content executable)) :
    after.locate cwd true path = .ok (placeAt cwd path) ∧
      after.status cwd path = .ok (.file content executable) ∧
      after.entry? (placeAt cwd path) = some (.file content executable) := by
  obtain ⟨located, held⟩ := entry?_of_status unlinked status
  have stays := edits.file held spared
  have stillLocated : after.locate cwd true path = .ok (placeAt cwd path) :=
    ((leads_of_walk located).carry edits.keepsWays fun _ => writable_of_file stays).walk_eq
  exact ⟨stillLocated, status_eq_ok.mpr ⟨_, stillLocated, stays⟩, stays⟩

theorem Edits.sameAt (edits : Edits files ways before after)
    (spared : ∀ place, files place → keep place = false)
    (settled : ∀ place, ways place → keep place = true → before.entry? place ≠ none) :
    SameAt keep before after := by
  induction edits with
  | refl => exact refl before
  | tail _ edit ih =>
    apply IsTrans.trans _ _ _ ih
    cases edit with
    | put chosen => exact sameAt_put (spared _ chosen) _
    | take chosen => exact sameAt_erase (spared _ chosen)
    | @make place onWay free =>
      apply sameAt_put
      -- A directory is made only where nothing was, which no place to keep on a way is.
      cases kept : keep place with
      | false => rfl
      | true => exact absurd ((ih.entry_eq kept).symm.trans free) (settled place onWay kept)

theorem Edits.fits (edits : Edits files ways before after) (start : Fits before other)
    (filed : ∀ place, files place →
      ∃ content executable, other.entry? place = some (.file content executable))
    (laid : ∀ place, ways place → other.entry? place = some .directory) : Fits after other := by
  have put : ∀ {tree : Tree} {place : Location} {entry like : Entry}, Fits tree other →
      other.entry? place = some like → entry.Alike like → Fits (tree.put place entry) other := by
    intro tree place entry like fits held alike location found present
    by_cases here : location = place
    · subst here
      by_cases root : location = []
      · subst root
        exact fits [] found present
      · rw [entry?_put_self _ _ root] at present
        exact ⟨like, held, Option.some.inj present ▸ alike⟩
    · rw [entry?_put_of_ne _ _ here] at present
      exact fits location found present
  induction edits with
  | refl => exact start
  | tail _ edit ih =>
    cases edit with
    | put chosen =>
      obtain ⟨content, executable, held⟩ := filed _ chosen
      exact put ih held trivial
    | take => exact IsTrans.trans _ _ _ (erase_fits _ _) ih
    | make onWay => exact put ih (laid _ onWay) rfl

end Tree

end FfiBindings
