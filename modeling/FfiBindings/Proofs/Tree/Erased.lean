import FfiBindings.Proofs.Tree.Resolution
import FfiBindings.Proofs.Tree.Room

set_option autoImplicit false

namespace FfiBindings.Tree

open ExceptT

variable {tree before after other : Tree} {place location here cwd : Location} {path : Path}
  {follow : Bool} {links : Nat} {parts above : List String} {name : String}

theorem Leads.of_erase (leads : Leads (tree.erase place) follow links here parts location) :
    location = place ∨ Leads tree follow links here parts location := by
  induction leads with
  | done links here => exact .inr (.done links here)
  | up onward ih => exact ih.imp_right .up
  | @last links here part name short writable =>
    by_cases same : here ++ [part] = place
    · exact .inl same
    · refine .inr (.last name short fun entry held => writable entry ?_)
      rwa [entry?_erase_of_ne tree same]
  | into name short directory onward ih =>
    exact ih.imp_right (.into name short (entry?_of_erase directory))
  | stay name short linked unfollowed =>
    exact .inr (.stay name short (entry?_of_erase linked) unfollowed)
  | through name short linked followed given onward ih =>
    exact ih.imp_right (.through name short (entry?_of_erase linked) followed given)

theorem walk_tooLong_of_fits (fits : Fits tree other)
    (failed : tree.walk follow links here parts = .error .nameTooLong) :
    other.walk follow links here parts = .error .nameTooLong := by
  -- A walk that meets what only the larger tree has ends as missing; the others go the same way in both.
  fun_induction Tree.walk tree follow links here parts with
  | case2 links here rest ih => rw [walk_up, ih failed]
  | case3 links here part rest name long => rw [walk.eq_3 _ _ _ _ _ _ name, if_pos long]
  | case6 links here part rest name next short directory ih =>
    rw [walk_into name (Nat.not_lt.mp short) (fits.ways _ _ directory (by simp)), ih failed]
  | case12 here part rest name next short target linked onward given links path ih =>
    have stands : other.entry? (here ++ [part]) = some (.link target) :=
      fits.ways _ _ linked (by simp)
    rw [walk.eq_3 _ _ _ _ _ _ name, if_neg short]
    simp only [stands, onward, given]
    exact ih failed
  | _ => cases failed

theorem status_eq_tooLong :
    tree.status cwd path = .error .nameTooLong ↔
      tree.locate cwd true path = .error .nameTooLong := by
  unfold status
  cases tree.locate cwd true path with
  | error defect => simp [bind, Except.bind]
  | ok location =>
    simp only [bind, Except.bind, reduceCtorEq, iff_false]
    cases tree.entry? location <;> exact fun failed => nomatch failed

theorem pathExists_eq_error {error : FileError} :
    tree.pathExists cwd path = .error error ↔
      tree.locate cwd true path = .error .nameTooLong ∧ containsNulPart path = false ∧
        error = refused path .nameTooLong := by
  rw [← status_eq_tooLong, pathExists, leadsTo]
  split
  · next entry status => simp [status]
  · next status =>
    rw [status]
    cases containsNulPart path <;> simp [eq_comm]
  · next defect other status =>
    simpa [status] using fun same => absurd same other

theorem pathExists_eq_error_of_fits (fits : Fits tree other) {error : FileError}
    (failed : tree.pathExists cwd path = .error error) :
    other.pathExists cwd path = .error error := by
  rw [pathExists_eq_error] at failed ⊢
  exact ⟨walk_tooLong_of_fits fits failed.1, failed.2⟩

theorem pathExists_eq_false_of_fits (fits : Fits tree other)
    (absent : other.pathExists cwd path = .ok false) : tree.pathExists cwd path = .ok false := by
  cases asked : tree.pathExists cwd path with
  | error error =>
    rw [pathExists_eq_error_of_fits fits asked] at absent
    cases absent
  | ok present =>
    cases present with
    | false => rfl
    | true =>
      obtain ⟨entry, status⟩ := pathExists_eq_true.mp asked
      obtain ⟨location, located, held⟩ := status_eq_ok.mp status
      obtain ⟨like, also, -⟩ := fits location entry held
      have found : other.status cwd path = .ok like :=
        status_eq_ok.mpr ⟨location, ((leads_of_walk located).fits fits held).walk_eq, also⟩
      rw [pathExists_eq_true.mpr ⟨like, found⟩] at absent
      cases absent

theorem ne_nil_of_held {entry : Entry} (held : tree.entry? place = some entry)
    (noDirectory : entry ≠ .directory) : place ≠ [] := by
  rintro rfl
  exact noDirectory (Option.some.inj held).symm

def OnlyHolds (tree : Tree) (cwd : Location) (path : Path) (property : Entry → Prop) : Prop :=
  ∀ location entry, tree.locate cwd false path = .ok location →
    tree.entry? location = some entry → property entry

theorem OnlyHolds.erase {property : Entry → Prop} (holds : tree.OnlyHolds cwd path property)
    (named : place ≠ []) : Tree.OnlyHolds (tree.erase place) cwd path property := by
  intro location entry located held
  rcases (leads_of_walk located).of_erase with same | leads
  · rw [same, entry?_erase_self tree named] at held
    cases held
  · exact holds location entry leads.walk_eq (entry?_of_erase held)

def NoLink (tree : Tree) (cwd : Location) (path : Path) : Prop :=
  tree.OnlyHolds cwd path fun entry => ∀ target, entry ≠ .link target

theorem Unlinked.noLink (unlinked : tree.Unlinked) (cwd : Location) (path : Path) :
    tree.NoLink cwd path := by
  rintro location entry - held target rfl
  exact unlinked location target held

theorem NoLink.erase (noLink : tree.NoLink cwd path) (named : place ≠ []) :
    Tree.NoLink (tree.erase place) cwd path :=
  OnlyHolds.erase noLink named

theorem Leads.unfollowed (leads : Leads tree true links here parts location) {entry : Entry}
    (held : tree.entry? location = some entry) :
    ∃ nearer, Leads tree false links here parts nearer ∧ ∃ other, tree.entry? nearer = some other := by
  induction leads with
  | done links here => exact ⟨here, .done links here, entry, held⟩
  | up onward ih =>
    obtain ⟨nearer, leads, present⟩ := ih held
    exact ⟨nearer, .up leads, present⟩
  | last name short writable => exact ⟨_, .last name short writable, entry, held⟩
  | into name short directory onward ih =>
    obtain ⟨nearer, leads, present⟩ := ih held
    exact ⟨nearer, .into name short directory leads, present⟩
  | stay name short linked unfollowed => cases unfollowed
  | @through links here location part target rest name short linked followed given onward ih =>
    cases rest with
    | nil => exact ⟨_, .stay name short linked rfl, _, linked⟩
    | cons next others =>
      obtain ⟨nearer, leads, present⟩ := ih held
      exact ⟨nearer, .through name short linked (by simp) given leads, present⟩

theorem unlink_of_found {entry : Entry} (found : tree.status cwd path = .ok entry)
    (noDirectory : tree.OnlyHolds cwd path (· ≠ .directory)) :
    (unlink cwd path).outcome tree = .ok () := by
  obtain ⟨location, located, held⟩ := status_eq_ok.mp found
  obtain ⟨nearer, leads, other, present⟩ := (leads_of_walk located).unfollowed held
  have named : tree.locate cwd false path = .ok nearer := leads.walk_eq
  have removable := noDirectory nearer other named present
  simp only [unlink, outcome_bind, outcome_get, after_get, named, present]
  cases other with
  | file content executable => rfl
  | directory => exact absurd rfl removable
  | link target => rfl

structure Stands (tree : Tree) (cwd : Location) (path : Path) (place : Location) : Prop where
  located : tree.locate cwd false path = .ok place
  file : ∃ content executable, tree.entry? place = some (.file content executable)

theorem Stands.status (stands : tree.Stands cwd path place) :
    ∃ content executable, tree.status cwd path = .ok (.file content executable) := by
  obtain ⟨content, executable, held⟩ := stands.file
  have leads := (leads_of_walk stands.located).followed held fun _ => nofun
  exact ⟨content, executable, status_eq_ok.mpr ⟨place, leads.walk_eq, held⟩⟩

theorem Stands.fits (stands : tree.Stands cwd path place) (fits : Fits tree other) :
    other.Stands cwd path place := by
  obtain ⟨content, executable, held⟩ := stands.file
  exact ⟨((leads_of_walk stands.located).fits fits held).walk_eq, fits.file held⟩

theorem Stands.erase (stands : tree.Stands cwd path place) {content : Text.Bytes}
    {executable : Bool} (held : tree.entry? location = some (.file content executable))
    (apart : location ≠ place) : Tree.Stands (tree.erase location) cwd path place := by
  obtain ⟨own, mode, file⟩ := stands.file
  have still : Tree.entry? (tree.erase location) place = some (.file own mode) := by
    rw [entry?_erase_of_ne tree apart.symm, file]
  have ways : KeepsWays tree (tree.erase location) := by
    intro way entry present noFile
    rw [entry?_erase_of_ne, present]
    rintro rfl
    exact noFile _ _ (Option.some.inj (present.symm.trans held))
  exact ⟨((leads_of_walk stands.located).carry ways fun _ => writable_of_file still).walk_eq,
    own, mode, still⟩

theorem stands_of_status {content : Text.Bytes} {executable : Bool}
    (found : tree.status cwd path = .ok (.file content executable))
    (noLink : tree.NoLink cwd path) : ∃ place, tree.Stands cwd path place := by
  obtain ⟨location, located, held⟩ := status_eq_ok.mp found
  obtain ⟨nearer, leads, entry, present⟩ := (leads_of_walk located).unfollowed held
  have followed := leads.followed present (noLink nearer entry leads.walk_eq present)
  obtain rfl := followed.unique (leads_of_walk located)
  exact ⟨nearer, leads.walk_eq, content, executable, held⟩

theorem Leads.ends (leads : Leads tree false links here (above ++ [name]) location)
    (notUp : name ≠ "..") : ∃ directory, location = directory ++ [name] := by
  generalize whole : above ++ [name] = parts at leads
  induction leads generalizing above with
  | done links here => simp at whole
  | up onward ih =>
    cases above with
    | nil => exact absurd (List.cons.inj whole).1 notUp
    | cons first rest => exact ih (List.cons.inj whole).2
  | @last links here part proper short writable =>
    obtain ⟨-, same⟩ := List.append_inj' (whole.trans (List.nil_append [part]).symm) rfl
    exact ⟨here, by rw [same]⟩
  | @into links here location part rest proper short directory onward ih =>
    cases above with
    | nil =>
      obtain ⟨rfl, rfl⟩ := List.cons.inj whole
      cases onward
      exact ⟨here, rfl⟩
    | cons first others => exact ih (List.cons.inj whole).2
  | @stay links here part target proper short linked unfollowed =>
    obtain ⟨-, same⟩ := List.append_inj' (whole.trans (List.nil_append [part]).symm) rfl
    exact ⟨here, by rw [same]⟩
  | @through links here location part target rest proper short linked followed given onward ih =>
    cases above with
    | nil =>
      -- A link in the last place is not followed here.
      obtain ⟨rfl, rfl⟩ := List.cons.inj whole
      simp at followed
    | cons first others =>
      obtain ⟨-, rfl⟩ := List.cons.inj whole
      exact @ih ((Path.ofString target).parts ++ others) (List.append_assoc _ _ _)

def Absent (tree : Tree) (cwd : Location) (path : Path) : Prop :=
  ∀ entry, tree.status cwd path ≠ .ok entry

theorem Absent.erase (absent : tree.Absent cwd path) (named : place ≠ []) :
    Tree.Absent (tree.erase place) cwd path := by
  intro entry found
  obtain ⟨location, located, held⟩ := status_eq_ok.mp found
  rcases (leads_of_walk located).of_erase with same | leads
  · rw [same, entry?_erase_self tree named] at held
    cases held
  · exact absent entry (status_eq_ok.mpr ⟨location, leads.walk_eq, entry?_of_erase held⟩)

theorem absent_of_erased (located : tree.locate cwd false path = .ok place) (named : place ≠ []) :
    Tree.Absent (tree.erase place) cwd path := by
  intro entry found
  obtain ⟨location, followed, held⟩ := status_eq_ok.mp found
  obtain ⟨nearer, leads, other, present⟩ := (leads_of_walk followed).unfollowed held
  have here : nearer = place := leads.of_erase.elim id fun leads =>
    leads.unique (leads_of_walk located)
  rw [here, entry?_erase_self tree named] at present
  cases present

theorem status_of_rooted (rooted : path.isAbsolute = true) (cwd : Location) :
    tree.status cwd path = tree.status [] path := by
  simp only [status, locate, startOf, rooted, if_true]

end FfiBindings.Tree
