import Mathlib.Tactic.ByContra
import FfiBindings.Proofs.Words
import FfiBindings.Settings.Coercion

set_option autoImplicit false

namespace FfiBindings

namespace Text

def wordsOf (text : String) : List String :=
  (words text.toList).map String.ofList

theorem normalise_eq_intercalate (text : String) :
    normalise text = " ".intercalate (wordsOf text) := by
  apply String.toList_inj.mp
  rw [normalise, String.toList_ofList, normaliseChars, joinWith_eq_intercalate,
    String.toList_intercalate, wordsOf, List.map_map]
  simp [Function.comp_def]

theorem normalise_eq_iff {text other : String} :
    normalise text = normalise other ↔ wordsOf text = wordsOf other := by
  constructor
  · intro same
    have letters := congrArg String.toList same
    rw [normalise, normalise, String.toList_ofList, String.toList_ofList] at letters
    rw [wordsOf, wordsOf, ← words_normaliseChars text.toList, letters, words_normaliseChars]
  · intro same
    rw [normalise_eq_intercalate, normalise_eq_intercalate, same]

end Text

open Text

namespace FfiType

theorem ofName?_eq_some_iff {name : String} {type : FfiType} :
    ofName? name = some type ↔ type.name = name := by
  constructor
  · intro found
    simpa using List.find?_some found
  · rintro rfl
    cases type <;> decide

theorem ofName?_eq_none_iff {name : String} :
    ofName? name = none ↔ ∀ type : FfiType, type.name ≠ name := by
  simp only [Option.eq_none_iff_forall_ne_some, ne_eq, ofName?_eq_some_iff]

end FfiType

namespace TypeAliases

variable {aliases result : TypeAliases} {entries : Value.Entries} {token : String}

theorem lookup_cons (token target other : String) (aliases : TypeAliases) :
    List.lookup other ((token, target) :: aliases) =
      if other = token then some target else aliases.lookup other := by
  by_cases same : other = token
  · simp [same]
  · have different : (other == token) = false := beq_eq_false_iff_ne.mpr same
    simp [List.lookup_cons, different, same]

theorem lookup_insert (token target other : String) (aliases : TypeAliases) :
    List.lookup other (insert token target aliases) =
      if other = token then some target else aliases.lookup other := by
  induction aliases with
  | nil => rw [insert, lookup_cons]
  | cons first rest ih =>
    obtain ⟨token', target'⟩ := first
    by_cases same : token = token'
    · subst same
      rw [insert, if_pos (beq_self_eq_true token), lookup_cons, lookup_cons]
      split <;> rfl
    · rw [insert, if_neg (by simpa using same), lookup_cons, lookup_cons, ih]
      by_cases here : other = token'
      · rw [if_pos here, if_neg (here ▸ Ne.symm same), if_pos here]
      · rw [if_neg here, if_neg here]

def IsTarget (target : Value) : Prop :=
  ∃ type : FfiType, target.text? = some type.name

theorem bind_ofName?_eq_some_iff {target : Value} {type : FfiType} :
    target.text?.bind FfiType.ofName? = some type ↔ target.text? = some type.name := by
  constructor
  · intro found
    obtain ⟨name, given, named⟩ := Option.bind_eq_some_iff.mp found
    rw [given, FfiType.ofName?_eq_some_iff.mp named]
  · intro given
    rw [given, Option.bind_some, FfiType.ofName?_eq_some_iff.mpr rfl]

theorem addAll_eq_ok_iff : (∃ result, addAll aliases entries = .ok result) ↔
    ∀ entry ∈ entries, IsTarget entry.2 := by
  induction entries generalizing aliases with
  | nil => simp [addAll]
  | cons entry rest ih =>
    obtain ⟨key, target⟩ := entry
    rw [addAll, List.forall_mem_cons]
    cases named : target.text?.bind FfiType.ofName? with
    | none =>
      have unknown : ¬ IsTarget target := by
        rintro ⟨type, given⟩
        rw [bind_ofName?_eq_some_iff.mpr given] at named
        cases named
      simp [unknown]
    | some type =>
      have known : IsTarget target := ⟨type, bind_ofName?_eq_some_iff.mp named⟩
      simp only [ih, known, true_and]

def lastFor (entries : Value.Entries) (token : String) : Option (Value × Value) :=
  (entries.filter fun entry => wordsOf entry.1.shown == wordsOf token).getLast?

theorem lastFor_cons (key target : Value) (rest : Value.Entries) (token : String) :
    lastFor ((key, target) :: rest) token =
      (lastFor rest token).or
        (if wordsOf key.shown = wordsOf token then some (key, target) else none) := by
  by_cases same : wordsOf key.shown = wordsOf token
  · rw [lastFor, List.filter_cons_of_pos (by simpa using same), List.getLast?_cons, if_pos same,
      lastFor]
    cases (rest.filter fun entry => wordsOf entry.1.shown == wordsOf token).getLast? <;> rfl
  · rw [lastFor, List.filter_cons_of_neg (by simpa using same), if_neg same, Option.or_none, lastFor]

theorem lookup_addAll (added : addAll aliases entries = .ok result) (token : String) :
    result.lookup (normalise token) =
      (lastFor entries token).elim (aliases.lookup (normalise token)) (·.2.text?) := by
  induction entries generalizing aliases with
  | nil =>
    cases added
    rfl
  | cons entry rest ih =>
    obtain ⟨key, target⟩ := entry
    rw [addAll] at added
    split at added
    · cases added
    · next type named =>
      rw [ih added, lookup_insert, lastFor_cons]
      cases lastFor rest token with
      | some later => rfl
      | none =>
        by_cases same : wordsOf key.shown = wordsOf token
        · rw [if_pos (normalise_eq_iff.mpr same.symm), if_pos same]
          exact (bind_ofName?_eq_some_iff.mp named).symm
        · rw [if_neg fun equal => same (normalise_eq_iff.mp equal).symm, if_neg same]
          rfl

theorem isTarget_of_lastFor (known : ∀ entry ∈ entries, IsTarget entry.2) {entry : Value × Value}
    (last : lastFor entries token = some entry) : IsTarget entry.2 :=
  known entry (List.mem_filter.mp (List.mem_of_getLast? last)).1

theorem mapType_of_alias {type : FfiType}
    (found : aliases.lookup (normalise token) = some type.name) : mapType aliases token = type := by
  rw [mapType, found, Option.getD_some, FfiType.ofName?_eq_some_iff.mpr rfl, Option.getD_some]

theorem mapType_of_no_alias (absent : aliases.lookup (normalise token) = none) :
    mapType aliases token =
      (FfiType.ofName? (" ".intercalate (wordsOf token))).getD FfiType.fallback := by
  rw [mapType, absent, Option.getD_none, normalise_eq_intercalate]

end TypeAliases

open TypeAliases in
theorem aliases_honoured (value : Value) :
    ((∃ error, TypeAliases.ofValue value = .error error) ↔
      ∃ entry ∈ value.entries, ∀ type : FfiType, entry.2.text? ≠ some type.name) ∧
    ∀ aliases, TypeAliases.ofValue value = .ok aliases → ∀ token : String,
      (∀ entry, lastFor value.entries token = some entry →
        entry.2.text? = some (mapType aliases token).name) ∧
      (lastFor value.entries token = none →
        (∀ type : FfiType, type.name = " ".intercalate (wordsOf token) →
          mapType aliases token = type) ∧
        ((∀ type : FfiType, type.name ≠ " ".intercalate (wordsOf token)) →
          mapType aliases token = .u64)) := by
  constructor
  · have accepted := @addAll_eq_ok_iff [] value.entries
    constructor
    · rintro ⟨error, refused⟩
      by_contra! known
      obtain ⟨aliases, taken⟩ := accepted.mpr known
      cases refused.symm.trans taken
    · rintro ⟨entry, member, unknown⟩
      cases taken : TypeAliases.ofValue value with
      | error error => exact ⟨error, rfl⟩
      | ok aliases =>
        obtain ⟨type, given⟩ := accepted.mp ⟨aliases, taken⟩ entry member
        exact absurd given (unknown type)
  · intro aliases taken token
    have known := addAll_eq_ok_iff.mp ⟨aliases, taken⟩
    have found := lookup_addAll taken token
    constructor
    · intro entry last
      obtain ⟨type, given⟩ := isTarget_of_lastFor known last
      rw [last, Option.elim_some, given] at found
      rw [given, mapType_of_alias found]
    · intro none
      rw [none, Option.elim_none] at found
      rw [mapType_of_no_alias found]
      constructor
      · intro type named
        rw [FfiType.ofName?_eq_some_iff.mpr named, Option.getD_some]
      · intro unnamed
        rw [FfiType.ofName?_eq_none_iff.mpr unnamed, Option.getD_none, FfiType.fallback]

def chainedAliases : Value :=
  .dict [(.text "Size", .text "f64"), (.text " Size\t", .text "u32"), (.text "u32", .text "i8")]

theorem chainedAliases_honoured :
    ∃ aliases, TypeAliases.ofValue chainedAliases = .ok aliases ∧
      (mapType aliases "\nSize ").name = "u32" ∧ (mapType aliases "u32").name = "i8" ∧
      mapType aliases "Sizes" = .u64 := by
  have taken : TypeAliases.ofValue chainedAliases = .ok [("Size", "u32"), ("u32", "i8")] := by rfl
  have honoured := (aliases_honoured chainedAliases).2 _ taken
  refine ⟨_, taken, ?_, ?_, ?_⟩
  · exact (Option.some.inj ((honoured "\nSize ").1 (.text " Size\t", .text "u32") (by rfl))).symm
  · exact (Option.some.inj ((honoured "u32").1 (.text "u32", .text "i8") (by rfl))).symm
  · exact ((honoured "Sizes").2 (by rfl)).2 fun type => by cases type <;> decide +kernel

end FfiBindings
