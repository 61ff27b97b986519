import FfiBindings.Path.Location
import FfiBindings.Proofs.Text

set_option autoImplicit false

namespace FfiBindings

def IsComponent (part : String) : Prop :=
  part ≠ "" ∧ part ≠ "." ∧ '/' ∉ part.toList

-- What a directory can hold an entry under: going up is not a name.
def IsName (part : String) : Prop :=
  IsComponent part ∧ part ≠ ".."

instance (part : String) : Decidable (IsComponent part) :=
  inferInstanceAs (Decidable (part ≠ "" ∧ part ≠ "." ∧ '/' ∉ part.toList))

instance (part : String) : Decidable (IsName part) :=
  inferInstanceAs (Decidable (IsComponent part ∧ part ≠ ".."))

namespace Path

def Spelled (path : Path) : Prop :=
  ∀ part ∈ path.parts, IsComponent part

theorem mem_partsOf_isComponent {text : List Char} {part : String}
    (member : part ∈ partsOf text) : IsComponent part := by
  simp only [partsOf, List.mem_map, List.mem_filter, Bool.and_eq_true, Bool.not_eq_true',
    List.isEmpty_eq_false_iff, bne_iff_ne, ne_eq] at member
  obtain ⟨piece, ⟨split, nonempty, notPoint⟩, rfl⟩ := member
  refine ⟨?_, ?_, by simpa using Text.notMem_of_mem_splitAt split⟩
  · intro same
    exact nonempty (by simpa using congrArg String.toList same)
  · intro same
    exact notPoint (by simpa using congrArg String.toList same)

theorem partsOf_intercalate {parts : List String} (spelled : ∀ part ∈ parts, IsComponent part) :
    partsOf ("/".intercalate parts).toList = parts := by
  cases parts with
  | nil => rfl
  | cons first rest =>
    have split : Text.splitAt '/' ("/".intercalate (first :: rest)).toList =
        (first :: rest).map String.toList := by
      rw [String.toList_intercalate]
      apply Text.splitAt_intercalate (by simp)
      intro piece member
      obtain ⟨part, inside, rfl⟩ := List.mem_map.mp member
      exact (spelled part inside).2.2
    have kept : ∀ piece ∈ (first :: rest).map String.toList,
        (!piece.isEmpty && piece != ['.']) = true := by
      intro piece member
      obtain ⟨part, inside, rfl⟩ := List.mem_map.mp member
      have nonempty : part.toList ≠ [] := by
        intro same
        exact (spelled part inside).1 (String.toList_inj.mp (by simpa using same))
      have notPoint : part.toList ≠ ['.'] := by
        intro same
        exact (spelled part inside).2.1 (String.toList_inj.mp (by simpa using same))
      simp [nonempty, notPoint]
    rw [partsOf, split, List.filter_eq_self.mpr kept, List.map_map]
    simp

theorem partsOf_component {part : String} (spelled : IsComponent part) :
    partsOf part.toList = [part] := by
  simpa using partsOf_intercalate (List.forall_mem_singleton.mpr spelled)

theorem partsOf_append (text rest : List Char) :
    partsOf (text ++ '/' :: rest) = partsOf text ++ partsOf rest := by
  rw [partsOf, Text.splitAt_append, List.filter_append, List.map_append]
  rfl

theorem partsOf_intercalate_concat {parts : List String}
    (spelled : ∀ part ∈ parts, IsComponent part) (last : String) :
    partsOf ("/".intercalate (parts ++ [last])).toList = parts ++ partsOf last.toList := by
  by_cases none : parts = []
  · simp [none]
  · have joined : ("/".intercalate (parts ++ [last])).toList =
        ("/".intercalate parts).toList ++ '/' :: last.toList := by
      rw [String.intercalate_append_of_ne_nil none (by simp)]
      simp
    rw [joined, partsOf_append, partsOf_intercalate spelled]

theorem anchorOf_of_head {text : List Char} (head : ∀ c ∈ text.head?, c ≠ '/') :
    anchorOf text = .here := by
  cases text with
  | nil => rfl
  | cons c rest =>
    have ordinary : c ≠ '/' := head c rfl
    unfold anchorOf
    split <;> simp_all

theorem anchorOf_component {part : String} (spelled : IsComponent part) :
    anchorOf part.toList = .here :=
  anchorOf_of_head fun _ first slash => spelled.2.2 (slash ▸ List.mem_of_mem_head? first)

theorem head_intercalate {parts : List String} (spelled : ∀ part ∈ parts, IsComponent part) :
    ∀ c ∈ ("/".intercalate parts).toList.head?, c ≠ '/' := by
  intro c head
  cases parts with
  | nil => simp at head
  | cons first rest =>
    obtain ⟨nonempty, -, clear⟩ := spelled first (by simp)
    cases letters : first.toList with
    | nil => exact absurd (String.toList_inj.mp (by simpa using letters)) nonempty
    | cons letter others =>
      rw [letters] at clear
      have starts : ("/".intercalate (first :: rest)).toList.head? = some letter := by
        cases rest <;> simp [letters]
      rw [starts] at head
      cases head
      intro slash
      exact clear (by simp [slash])

theorem ofString_intercalate {parts : List String}
    (spelled : ∀ part ∈ parts, IsComponent part) :
    ofString ("/".intercalate parts) = { anchor := .here, parts } := by
  simp only [ofString, partsOf_intercalate spelled, anchorOf_of_head (head_intercalate spelled)]

theorem toString_here {parts : List String} (some : parts ≠ []) :
    toString ⟨.here, parts⟩ = "/".intercalate parts := by
  cases parts with
  | nil => exact absurd rfl some
  | cons first rest => exact String.empty_append

theorem ofString_toString {path : Path} (spelled : path.Spelled) (rooted : path.anchor = .root) :
    ofString path.toString = path := by
  obtain ⟨anchor, parts⟩ := path
  subst rooted
  have parts_eq : partsOf (toString ⟨.root, parts⟩).toList = parts := by
    have text : (toString ⟨.root, parts⟩).toList = '/' :: ("/".intercalate parts).toList := by
      simp [toString, Anchor.text]
    have inner := partsOf_intercalate spelled
    rw [text]
    simpa [partsOf, Text.splitAt] using inner
  have anchor_eq : anchorOf (toString ⟨.root, parts⟩).toList = .root := by
    have head := head_intercalate spelled
    have text : (toString ⟨.root, parts⟩).toList = '/' :: ("/".intercalate parts).toList := by
      simp [toString, Anchor.text]
    rw [text]
    cases letters : ("/".intercalate parts).toList with
    | nil => rfl
    | cons letter others =>
      have ordinary : letter ≠ '/' := head letter (by simp [letters])
      unfold anchorOf
      split <;> simp_all
  simp only [ofString, parts_eq, anchor_eq]

theorem div_of_relative {base : Path} {text : String} (relative : anchorOf text.toList = .here) :
    base / text = { base with parts := base.parts ++ partsOf text.toList } := by
  change base.join (ofString text) = _
  simp [join, isAbsolute, ofString, relative]

@[simp] theorem div_parts_of_relative {base : Path} {text : String}
    (relative : anchorOf text.toList = .here) :
    (base / text).parts = base.parts ++ partsOf text.toList := by
  rw [div_of_relative relative]

theorem div_anchor (base : Path) (text : String) (rooted : base.anchor ≠ .here) :
    (base / text).anchor ≠ .here := by
  change (base.join (ofString text)).anchor ≠ .here
  simp only [join, isAbsolute, bne_iff_ne, ne_eq, ite_not]
  split
  · exact rooted
  · assumption

end Path

namespace Location

theorem covers_iff {upper lower : Location} : upper.covers lower = true ↔ upper <+: lower := by
  simp [covers]

theorem strictlyCovers_iff {upper lower : Location} :
    upper.strictlyCovers lower = true ↔ upper <+: lower ∧ upper ≠ lower := by
  simp [strictlyCovers, covers]

theorem strictlyCovers_iff_dropLast {upper lower : Location} (inside : lower ≠ []) :
    upper.strictlyCovers lower = true ↔ upper <+: lower.dropLast := by
  rw [strictlyCovers_iff]
  constructor
  · rintro ⟨⟨below, rfl⟩, different⟩
    have nonempty : below ≠ [] := by
      rintro rfl
      simp at different
    rw [List.dropLast_append_of_ne_nil nonempty]
    exact List.prefix_append _ _
  · intro begins
    refine ⟨begins.trans (List.dropLast_prefix lower), ?_⟩
    rintro rfl
    have shorter := begins.length_le
    have some := List.length_pos_iff.mpr inside
    rw [List.length_dropLast] at shorter
    omega

theorem covers_append (upper below : Location) : upper.covers (upper ++ below) = true :=
  covers_iff.mpr (List.prefix_append upper below)

theorem overlaps_of_covers {first second lower : Location} (above : first.covers lower = true)
    (alsoAbove : second.covers lower = true) : first.overlaps second = true := by
  rw [covers_iff] at above alsoAbove
  simp only [overlaps, Bool.or_eq_true, covers_iff]
  exact List.prefix_or_prefix_of_prefix above alsoAbove

theorem overlaps_of_prefix {upper lower : Location} (begins : upper <+: lower) :
    upper.overlaps lower = true := by
  simp [overlaps, covers_iff.mpr begins]

theorem overlaps_siblings (parent : Location) {first second : String} (different : first ≠ second) :
    overlaps (parent ++ [first]) (parent ++ [second]) = false := by
  have apart : ∀ {one other : String}, one ≠ other →
      covers (parent ++ [one]) (parent ++ [other]) = false := by
    intro one other distinct
    rw [Bool.eq_false_iff, ne_eq, covers_iff]
    intro above
    exact distinct (by simpa using above.eq_of_length (by simp))
  simp [overlaps, apart different, apart different.symm]

theorem not_siblings_above {parent place : Location} {first second : String}
    (different : first ≠ second) (above : parent ++ [first] <+: place)
    (alsoAbove : parent ++ [second] <+: place) : False := by
  have overlap := overlaps_of_covers (covers_iff.mpr above) (covers_iff.mpr alsoAbove)
  rw [overlaps_siblings parent different] at overlap
  cases overlap

theorem steps_append (start : Location) (parts others : List String) :
    steps start (parts ++ others) = steps (steps start parts) others :=
  List.foldl_append

@[simp] theorem steps_nil (start : Location) : steps start [] = start := rfl

theorem steps_cons (start : Location) (part : String) (rest : List String) :
    steps start (part :: rest) = steps (step start part) rest := rfl

@[simp] theorem step_up (start : Location) : step start ".." = start.dropLast := rfl

theorem step_down {start : Location} {part : String} (name : part ≠ "..") :
    step start part = start ++ [part] := by
  simp [step, name]

theorem steps_of_names {start : Location} {parts : List String}
    (names : ∀ part ∈ parts, part ≠ "..") : steps start parts = start ++ parts := by
  induction parts generalizing start with
  | nil => simp
  | cons part rest ih =>
    simp only [List.forall_mem_cons] at names
    rw [steps_cons, step_down names.1, ih names.2]
    simp

theorem notMem_steps {start : Location} {parts : List String} (clear : ".." ∉ start) :
    ".." ∉ start.steps parts := by
  induction parts generalizing start with
  | nil => exact clear
  | cons part rest ih =>
    apply ih
    by_cases up : part = ".."
    · subst up
      exact fun member => clear (List.dropLast_subset start member)
    · rw [step_down up]
      simp [clear, Ne.symm up]

theorem steps_steps_nil (parts : List String) : steps [] (steps [] parts) = steps [] parts := by
  rw [steps_of_names fun part member up => notMem_steps List.not_mem_nil (up ▸ member)]
  rfl

theorem relativeParts_cases (start target : Location) :
    ∃ common up down, start = common ++ up ∧ target = common ++ down ∧
      relativeParts start target = List.replicate up.length ".." ++ down ∧
      (down = [] ↔ target.covers start = true) := by
  fun_induction relativeParts start target with
  | case1 first start second target same ih =>
    obtain ⟨common, up, down, rfl, rfl, relative, ends⟩ := ih
    obtain rfl := beq_iff_eq.mp same
    refine ⟨first :: common, up, down, rfl, rfl, relative, ?_⟩
    rw [ends, covers_iff, covers_iff, List.cons_prefix_cons]
    simp
  | case2 first start second target other =>
    refine ⟨[], first :: start, second :: target, rfl, rfl, rfl, ?_⟩
    rw [covers_iff, List.cons_prefix_cons]
    simp [Ne.symm (by simpa using other)]
  | case3 start target ended =>
    refine ⟨[], start, target, rfl, rfl, rfl, ?_⟩
    cases start with
    | nil => simp [covers_iff]
    | cons first rest =>
      cases target with
      | nil => simp [covers_iff]
      | cons second others => exact absurd rfl (ended first rest second others rfl)

theorem relativeParts_append (start below : Location) :
    relativeParts start (start ++ below) = below := by
  induction start with
  | nil => cases below <;> rfl
  | cons part rest ih => simpa [relativeParts] using ih

theorem steps_replicate_up (location : Location) (count : Nat) :
    steps location (List.replicate count "..") = location.take (location.length - count) := by
  induction count generalizing location with
  | zero => simp
  | succ count ih =>
    rw [List.replicate_succ, steps_cons, step_up, ih, List.dropLast_eq_take, List.take_take,
      List.length_take]
    congr 1
    omega

@[simp] theorem path_anchor (location : Location) : location.path.anchor = .root := rfl

@[simp] theorem path_parts (location : Location) : location.path.parts = location := rfl

end Location

theorem Path.location_div {base : Path} {text : String}
    (relative : Path.anchorOf text.toList = .here) :
    (base / text).location = base.location.steps (Path.partsOf text.toList) := by
  rw [Path.location, Path.div_parts_of_relative relative, Location.steps_append]
  rfl

def longName (count : Nat) : String :=
  String.ofList (List.replicate count 'x')

theorem notMem_longName {count : Nat} {c : Char} (other : c ≠ 'x') : c ∉ (longName count).toList := by
  rw [longName, String.toList_ofList]
  exact fun letter => other (List.eq_of_mem_replicate letter)

theorem utf8ByteSize_longName (count : Nat) (suffix : String) :
    (longName count ++ suffix).utf8ByteSize = count + suffix.utf8ByteSize := by
  have counted : (longName count).utf8ByteSize = count := by
    unfold longName
    induction count with
    | zero => rfl
    | succ count ih =>
      rw [List.replicate_succ', String.ofList_append, String.utf8ByteSize_append, ih]
      rfl
  rw [String.utf8ByteSize_append, counted]

theorem isName_longName {count : Nat} (long : 3 ≤ count) : IsName (longName count) := by
  have differs : ∀ other : String, other.utf8ByteSize < 3 → longName count ≠ other := by
    rintro other short rfl
    have size := utf8ByteSize_longName count ""
    rw [String.append_empty] at size
    rw [size] at short
    exact absurd long (Nat.not_le.mpr short)
  exact ⟨⟨differs "" (by decide), differs "." (by decide), notMem_longName (by decide)⟩,
    differs ".." (by decide)⟩

end FfiBindings
