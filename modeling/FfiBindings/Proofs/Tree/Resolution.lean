import Mathlib.Data.List.Infix
import Mathlib.Data.List.Perm.Subperm
import Mathlib.Data.Nat.Find
import FfiBindings.Proofs.Tree.Content

set_option autoImplicit false

namespace FfiBindings.Tree

variable {tree : Tree} {follow : Bool} {links : Nat} {here location : Location}
  {parts : List String}

theorem Leads.mono (leads : Leads tree follow links here parts location) {more : Nat}
    (enough : links ≤ more) : Leads tree follow more here parts location := by
  induction leads generalizing more with
  | done links here => exact .done more here
  | up onward ih => exact .up (ih enough)
  | last name short writable => exact .last name short writable
  | into name short directory onward ih => exact .into name short directory (ih enough)
  | stay name short linked unfollowed => exact .stay name short linked unfollowed
  | through name short linked followed given onward ih =>
    cases more with
    | zero => omega
    | succ more => exact .through name short linked followed given (ih (by omega))

theorem Leads.unique (leads : Leads tree follow links here parts location) {others : Nat}
    {other : Location} (also : Leads tree follow others here parts other) : location = other := by
  have first := (leads.mono (Nat.le_max_left links others)).walk_eq
  have second := (also.mono (Nat.le_max_right links others)).walk_eq
  exact Except.ok.inj (first.symm.trans second)

theorem Leads.split {first rest : List String}
    (leads : Leads tree true links here (first ++ rest) location) :
    ∃ middle, Leads tree true links here first middle ∧
      Leads tree true links middle rest location := by
  generalize whole : first ++ rest = parts at leads
  induction leads generalizing first with
  | done links here =>
    obtain ⟨rfl, rfl⟩ := List.append_eq_nil_iff.mp whole
    exact ⟨here, .done links here, .done links here⟩
  | @up links here location others onward ih =>
    cases first with
    | nil =>
      subst whole
      exact ⟨here, .done links here, .up onward⟩
    | cons part first =>
      obtain ⟨rfl, rfl⟩ := List.cons.inj whole
      obtain ⟨middle, before, after⟩ := ih rfl
      exact ⟨middle, .up before, after⟩
  | @last links here part name short writable =>
    cases first with
    | nil =>
      subst whole
      exact ⟨here, .done links here, .last name short writable⟩
    | cons other first =>
      obtain ⟨rfl, ended⟩ := List.cons.inj whole
      obtain ⟨rfl, rfl⟩ := List.append_eq_nil_iff.mp ended
      exact ⟨_, .last name short writable, .done links _⟩
  | @into links here location part others name short directory onward ih =>
    cases first with
    | nil =>
      subst whole
      exact ⟨here, .done links here, .into name short directory onward⟩
    | cons other first =>
      obtain ⟨rfl, rfl⟩ := List.cons.inj whole
      obtain ⟨middle, before, after⟩ := ih rfl
      exact ⟨middle, .into name short directory before, after⟩
  | stay name short linked unfollowed => cases unfollowed
  | @through links here location part target others name short linked followed given onward ih =>
    cases first with
    | nil =>
      subst whole
      exact ⟨here, .done _ here, .through name short linked followed given onward⟩
    | cons other first =>
      obtain ⟨rfl, rfl⟩ := List.cons.inj whole
      -- The components of the target stand in front of those that were left to go.
      obtain ⟨middle, before, after⟩ := @ih ((Path.ofString target).parts ++ first) (by simp)
      exact ⟨middle, .through name short linked (by simp) given before, after.mono (by omega)⟩

def Opens (tree : Tree) (links : Nat) (place : Location) : Prop :=
  ∃ target middle, tree.entry? place = some (.link target) ∧
    Leads tree true links (linkStart (Path.ofString target) place.dropLast)
      (Path.ofString target).parts middle

theorem Opens.least {place : Location} (opens : tree.Opens links place) :
    ∃ least, least ≤ links ∧ tree.Opens least place ∧
      ∀ fewer < least, ¬ tree.Opens fewer place := by
  classical
  have some : ∃ count, tree.Opens count place := ⟨links, opens⟩
  exact ⟨Nat.find some, Nat.find_min' some opens, Nat.find_spec some,
    fun fewer below => Nat.find_min some below⟩

/-- The links being followed while so many are left to follow: all of them links of the tree, none
of them twice, and none that could be followed to the end with what is left. -/
structure Pending (tree : Tree) (depth links : Nat) (active : List Location) : Prop where
  linked : ∀ place ∈ active, ∃ target, tree.entry? place = some (.link target)
  nodup : active.Nodup
  enough : tree.linkCount ≤ depth + active.length
  unopened : ∀ place ∈ active, ∀ fewer < links, ¬ tree.Opens fewer place

theorem length_le_linkCount {places : List Location} (nodup : places.Nodup)
    (linked : ∀ place ∈ places, ∃ target, tree.entry? place = some (.link target)) :
    places.length ≤ tree.linkCount := by
  rw [linkCount, ← List.length_map fun entry : Location × Entry => entry.1]
  refine (nodup.subperm fun place member => ?_).length_le
  obtain ⟨target, held⟩ := linked place member
  have inside : place ≠ [] := by
    rintro rfl
    simp at held
  exact List.mem_map.mpr ⟨(place, .link target),
    List.mem_filter.mpr ⟨mem_entries_of_found inside held, rfl⟩, rfl⟩

theorem Pending.fewer {depth : Nat} {active : List Location}
    (pending : Pending tree depth links active) {fewer : Nat} (less : fewer ≤ links) :
    Pending tree depth fewer active where
  linked := pending.linked
  nodup := pending.nodup
  enough := pending.enough
  unopened place member count below := pending.unopened place member count (by omega)

theorem Pending.depth_pos {depth : Nat} {active : List Location}
    (pending : Pending tree depth links active) {place : Location} {target : String}
    (linked : tree.entry? place = some (.link target)) (fresh : place ∉ active) : 0 < depth := by
  have all : ∀ other ∈ place :: active, ∃ target, tree.entry? other = some (.link target) :=
    List.forall_mem_cons.mpr ⟨⟨target, linked⟩, pending.linked⟩
  have bound := length_le_linkCount (List.nodup_cons.mpr ⟨fresh, pending.nodup⟩) all
  have enough := pending.enough
  rw [List.length_cons] at bound
  omega

theorem Pending.push {depth : Nat} {active : List Location}
    (pending : Pending tree (depth + 1) links active) {place : Location} {target : String}
    (linked : tree.entry? place = some (.link target)) (fresh : place ∉ active) {least : Nat}
    (less : least ≤ links) (minimal : ∀ fewer < least, ¬ tree.Opens fewer place) :
    Pending tree depth least (place :: active) where
  linked := List.forall_mem_cons.mpr ⟨⟨target, linked⟩, pending.linked⟩
  nodup := List.nodup_cons.mpr ⟨fresh, pending.nodup⟩
  enough := by
    have enough := pending.enough
    rw [List.length_cons]
    omega
  unopened := List.forall_mem_cons.mpr
    ⟨minimal, fun other member fewer below => pending.unopened other member fewer (by omega)⟩

-- Resolving goes where a walk goes, unless it meets a NUL character.
theorem Leads.resolveFrom_eq (leads : Leads tree true links here parts location) {depth : Nat}
    {active : List Location} (pending : Pending tree depth links active) :
    tree.resolveFrom depth active here parts = .found location ∨
      tree.resolveFrom depth active here parts = .nul := by
  -- Behind a link there are fewer links left to follow; else there is one component less.
  induction links using Nat.strongRecOn generalizing here parts location depth active with
  | ind links fewer =>
    induction parts generalizing here with
    | nil =>
      cases leads
      exact .inl (by rw [resolveFrom])
    | cons part rest onward =>
      by_cases up : part = ".."
      · subst up
        rw [resolveFrom]
        cases leads with
        | up further => exact onward further
        | last name | into name | stay name | through name => exact absurd rfl name
      rw [resolveFrom.eq_3 _ _ _ _ _ _ up]
      simp only
      split
      · exact .inr rfl
      cases leads with
      | up => exact absurd rfl up
      | last name short writable =>
        refine .inl ?_
        split
        · next target linked =>
          obtain ⟨content, executable, same⟩ := writable _ linked
          cases same
        · rw [resolveFrom]
      | into name short directory further =>
        rw [directory]
        exact onward further
      | stay name short linked unfollowed => cases unfollowed
      | @through left _ _ _ target _ name short linked followed given further =>
        -- Had the link been met before, it could have been opened with fewer links left.
        obtain ⟨middle, behind, after⟩ := further.split
        have opens : tree.Opens left (here ++ [part]) :=
          ⟨target, middle, linked, by simpa using behind⟩
        have fresh : here ++ [part] ∉ active :=
          fun member => pending.unopened _ member left (by omega) opens
        obtain ⟨least, enough, tight, minimal⟩ := opens.least
        obtain ⟨_, reached, again, shortest⟩ := tight
        obtain rfl : target = _ := by simpa using linked.symm.trans again
        rw [List.dropLast_concat] at shortest
        obtain rfl := shortest.unique behind
        obtain ⟨depth, rfl⟩ : ∃ less, depth = less + 1 :=
          Nat.exists_eq_succ_of_ne_zero (Nat.ne_of_gt (pending.depth_pos linked fresh))
        -- The target is resolved with just as many links left as it takes, the rest with those left.
        simp only [linked, List.contains_iff_mem, fresh, if_false]
        have pushed : Pending tree depth least ((here ++ [part]) :: active) :=
          pending.push linked fresh (by omega) minimal
        rcases fewer least (by omega) shortest pushed with found | nul
        · rw [found]
          exact fewer left (by omega) after (pending.fewer (by omega))
        · rw [nul]
          exact .inr rfl

theorem resolve_of_located {cwd : Location} {path : Path}
    (located : tree.locate cwd true path = .ok location) :
    tree.resolve cwd path = .ok location ∨ tree.resolve cwd path = .error .nulInPath := by
  have pending : Pending tree tree.linkCount linkLimit [] :=
    ⟨by simp, List.nodup_nil, by simp, by simp⟩
  unfold resolve
  rcases (leads_of_walk located).resolveFrom_eq pending with found | nul
  · rw [found]
    exact .inl rfl
  · rw [nul]
    exact .inr rfl

theorem resolve_eq_located {cwd place : Location} {path : Path}
    (resolved : tree.resolve cwd path = .ok place)
    (located : tree.locate cwd true path = .ok location) : place = location := by
  rcases resolve_of_located located with found | nul
  · exact Except.ok.inj (resolved.symm.trans found)
  · rw [nul] at resolved
    cases resolved

def holdsLink (tree : Tree) (place : Location) : Bool :=
  match tree.entry? place with
  | some (.link _) => true
  | _ => false

theorem holdsLink_eq_false {place : Location} :
    tree.holdsLink place = false ↔ ∀ target, tree.entry? place ≠ some (.link target) := by
  unfold holdsLink
  split
  · next target linked => simp [linked]
  · next noLink => simpa using noLink

/-- No link stands at a place or above it. -/
def Straight (tree : Tree) (location : Location) : Prop :=
  ∀ upper, upper <+: location → ∀ target, tree.entry? upper ≠ some (.link target)

theorem straight_iff : tree.Straight location ↔
    ∀ upper ∈ location.inits, tree.holdsLink upper = false := by
  simp only [Straight, List.mem_inits, holdsLink_eq_false]

instance (tree : Tree) (location : Location) : Decidable (tree.Straight location) :=
  decidable_of_iff _ straight_iff.symm

theorem straight_nil (tree : Tree) : tree.Straight [] := by
  intro upper above target linked
  simp [List.prefix_nil.mp above] at linked

theorem Straight.dropLast (straight : tree.Straight location) : tree.Straight location.dropLast :=
  fun upper above => straight upper (above.trans (List.dropLast_prefix location))

theorem Straight.concat (straight : tree.Straight location) {part : String}
    (noLink : ∀ target, tree.entry? (location ++ [part]) ≠ some (.link target)) :
    tree.Straight (location ++ [part]) := by
  intro upper above
  rcases List.prefix_concat_iff.mp above with rfl | higher
  · exact noLink
  · exact straight upper higher

theorem Leads.straight (leads : Leads tree true links here parts location)
    (straight : tree.Straight here) (clear : ".." ∉ here) :
    tree.Straight location ∧ ".." ∉ location := by
  induction leads with
  | done links here => exact ⟨straight, clear⟩
  | up onward ih =>
    exact ih straight.dropLast fun member => clear (List.dropLast_subset _ member)
  | last name short writable =>
    refine ⟨straight.concat fun target linked => ?_, by simp [clear, Ne.symm name]⟩
    obtain ⟨content, executable, same⟩ := writable _ linked
    cases same
  | into name short directory onward ih =>
    exact ih (straight.concat (by simp [directory])) (by simp [clear, Ne.symm name])
  | stay name short linked unfollowed => cases unfollowed
  | through name short linked followed given onward ih =>
    apply ih
    · unfold linkStart
      split
      · exact straight_nil _
      · exact straight
    · unfold linkStart
      split
      · exact List.not_mem_nil
      · exact clear

theorem resolveFrom_of_straight (straight : tree.Straight (here ++ parts)) (clear : ".." ∉ parts)
    (depth : Nat) (active : List Location) :
    tree.resolveFrom depth active here parts =
      if parts.any containsNul then .nul else .found (here ++ parts) := by
  induction parts generalizing here with
  | nil =>
    rw [resolveFrom, List.append_nil]
    rfl
  | cons part rest ih =>
    rw [List.mem_cons, not_or] at clear
    rw [List.append_cons] at straight ⊢
    rw [resolveFrom.eq_3 _ _ _ _ _ _ (Ne.symm clear.1)]
    simp only [List.any_cons, Bool.or_eq_true]
    split
    · next nul => rw [if_pos (.inl nul)]
    · next plain =>
      simp only [plain, Bool.false_eq_true, false_or]
      split
      · next target linked =>
        exact absurd linked (straight _ (List.prefix_append _ _) target)
      · exact ih straight clear.2

theorem resolve_of_straight (straight : tree.Straight location) (clear : ".." ∉ location)
    (cwd : Location) :
    tree.resolve cwd location.path =
      if location.any containsNul then .error .nulInPath else .ok location := by
  have start : startOf location.path cwd = [] := rfl
  have resolved := @resolveFrom_of_straight tree [] location straight clear tree.linkCount []
  rw [List.nil_append] at resolved
  rw [resolve, start, Location.path_parts, resolved]
  cases location.any containsNul <;> rfl

theorem resolve_self (straight : tree.Straight location) (clear : ".." ∉ location)
    (plain : location.any containsNul = false) (cwd : Location) :
    tree.resolve cwd location.path = .ok location := by
  rw [resolve_of_straight straight clear, plain]
  rfl

theorem eq_of_resolve_straight {cwd place : Location} (straight : tree.Straight location)
    (clear : ".." ∉ location) (resolved : tree.resolve cwd location.path = .ok place) :
    place = location := by
  rw [resolve_of_straight straight clear] at resolved
  split at resolved
  · cases resolved
  · exact (Except.ok.inj resolved).symm

end FfiBindings.Tree
