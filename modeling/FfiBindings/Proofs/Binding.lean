import Mathlib.Data.List.Basic
import FfiBindings.Binding.Basic
import FfiBindings.Extraction.Scan
import FfiBindings.Proofs.FirstOfEach

set_option autoImplicit false

namespace FfiBindings

theorem keepFirst_records {source : String} {seen : List String} {declared : List Signature}
    {record : Log.Record} (member : record ∈ (keepFirst source seen declared).records) :
    ∃ name, record = duplicateRecord source name := by
  induction declared generalizing seen with
  | nil => cases member
  | cons signature rest ih =>
    unfold keepFirst at member
    split at member
    · rcases List.mem_cons.mp member with rfl | later
      · exact ⟨signature.name, rfl⟩
      · exact ih later
    · exact ih member

theorem keepFirst_concat (source : String) (seen : List String) (declared : List Signature)
    (signature : Signature) :
    keepFirst source seen (declared ++ [signature]) =
      if signature.name ∈ seen ∨ signature.name ∈ declared.map (·.name) then
        { kept := (keepFirst source seen declared).kept
          records := (keepFirst source seen declared).records ++
            [duplicateRecord source signature.name] }
      else
        { kept := (keepFirst source seen declared).kept ++ [signature]
          records := (keepFirst source seen declared).records } := by
  induction declared generalizing seen with
  | nil => by_cases known : signature.name ∈ seen <;> simp [keepFirst, known]
  | cons first rest ih =>
    rw [List.cons_append, keepFirst, keepFirst]
    by_cases known : first.name ∈ seen
    · -- A name that is reported counts among the names seen already.
      have same : (signature.name ∈ seen ∨ signature.name ∈ (first :: rest).map (·.name)) ↔
          (signature.name ∈ seen ∨ signature.name ∈ rest.map (·.name)) := by
        rw [List.map_cons, List.mem_cons]
        refine ⟨?_, fun found => found.imp_right .inr⟩
        rintro (listed | found | found)
        · exact .inl listed
        · exact .inl (found ▸ known)
        · exact .inr found
      have seenBefore := List.contains_iff_mem.mpr known
      simp only [seenBefore, if_true, ih, same]
      split <;> rfl
    · have same : (signature.name ∈ seen ∨ signature.name ∈ (first :: rest).map (·.name)) ↔
          (signature.name ∈ first.name :: seen ∨ signature.name ∈ rest.map (·.name)) := by
        rw [List.map_cons, List.mem_cons, List.mem_cons]
        tauto
      have unseen : seen.contains first.name = false := by simpa using known
      simp only [unseen, Bool.false_eq_true, if_false, ih, same]
      split <;> rfl

theorem deduplicate_concat (source : String) (declared : List Signature) (signature : Signature) :
    deduplicate source (declared ++ [signature]) =
      if signature.name ∈ declared.map (·.name) then
        { kept := (deduplicate source declared).kept
          records := (deduplicate source declared).records ++
            [duplicateRecord source signature.name] }
      else
        { kept := (deduplicate source declared).kept ++ [signature]
          records := (deduplicate source declared).records } := by
  simp only [deduplicate, keepFirst_concat, List.not_mem_nil, false_or]

theorem deduplicate_kept (source : String) (declared : List Signature) :
    (deduplicate source declared).kept = firstOfEach (·.name) declared := by
  induction declared using List.reverseRecOn with
  | nil => rfl
  | append_singleton declared signature ih =>
    rw [deduplicate_concat, firstOfEach_concat, ← ih]
    split <;> rfl

def extractedModule (source name : String) (text : List Char) : BindingModule :=
  { source, name, signatures := (deduplicate source (Extraction.extract text)).kept }

theorem mem_extract_of_mem_extractedModule {source name : String} {text : List Char}
    {signature : Signature} (member : signature ∈ (extractedModule source name text).signatures) :
    signature ∈ Extraction.extract text := by
  rw [extractedModule, deduplicate_kept] at member
  exact mem_of_mem_firstOfEach member

def isRepeated (declared : List Signature) (placed : Signature × Nat) : Bool :=
  ((declared.take placed.2).map (·.name)).contains placed.1.name

def declarations (repeated : Bool) (declared : List Signature) : List Signature :=
  (declared.zipIdx.filter fun placed => isRepeated declared placed == repeated).map (·.1)

theorem declarations_concat (repeated : Bool) (declared : List Signature) (signature : Signature) :
    declarations repeated (declared ++ [signature]) =
      if (declared.map (·.name)).contains signature.name = repeated then
        declarations repeated declared ++ [signature]
      else declarations repeated declared := by
  have earlier : ∀ placed ∈ declared.zipIdx,
      isRepeated (declared ++ [signature]) placed = isRepeated declared placed := by
    intro placed member
    have inside : placed.2 ≤ declared.length :=
      Nat.le_of_lt (by simpa using List.snd_lt_of_mem_zipIdx member)
    rw [isRepeated, isRepeated, List.take_append_of_le_length inside]
  have last : isRepeated (declared ++ [signature]) (signature, declared.length) =
      (declared.map (·.name)).contains signature.name := by
    rw [isRepeated, List.take_left]
  have filtered : (declared.zipIdx.filter fun placed =>
        isRepeated (declared ++ [signature]) placed == repeated) =
      declared.zipIdx.filter fun placed => isRepeated declared placed == repeated :=
    List.filter_congr fun placed member => by rw [earlier placed member]
  have itself : ([signature].zipIdx declared.length).filter
        (fun placed => isRepeated (declared ++ [signature]) placed == repeated) =
      if (declared.map (·.name)).contains signature.name = repeated then
        [(signature, declared.length)] else [] := by
    simp only [List.zipIdx_singleton, List.filter_cons, List.filter_nil, last, beq_iff_eq]
  rw [declarations, List.zipIdx_append, List.filter_append, filtered, Nat.zero_add, itself,
    List.map_append]
  split
  · rfl
  · exact List.append_nil _

theorem deduplicate_kept_places (source : String) (declared : List Signature) :
    (deduplicate source declared).kept = declarations false declared := by
  induction declared using List.reverseRecOn with
  | nil => rfl
  | append_singleton declared signature ih =>
    rw [deduplicate_concat, declarations_concat, ← ih]
    by_cases known : signature.name ∈ declared.map (·.name)
    · rw [if_pos known, if_neg (by simpa using known)]
    · rw [if_neg known, if_pos (by simpa using known)]

theorem deduplicate_records (source : String) (declared : List Signature) :
    (deduplicate source declared).records =
      (declarations true declared).map fun signature => duplicateRecord source signature.name := by
  induction declared using List.reverseRecOn with
  | nil => rfl
  | append_singleton declared signature ih =>
    rw [deduplicate_concat, declarations_concat]
    by_cases known : signature.name ∈ declared.map (·.name)
    · rw [if_pos known, if_pos (by simpa using known), List.map_append, ih]
      rfl
    · rw [if_neg known, if_neg (by simpa using known), ih]

theorem declarations_sublist (repeated : Bool) (declared : List Signature) :
    (declarations repeated declared).Sublist declared := by
  have sublist := (List.filter_sublist (l := declared.zipIdx)
    (p := fun placed => isRepeated declared placed == repeated)).map Prod.fst
  rwa [List.zipIdx_map_fst] at sublist

theorem deduplicate_of_nodup (source : String) {declared : List Signature}
    (distinct : (declared.map (·.name)).Nodup) :
    deduplicate source declared = { kept := declared, records := [] } := by
  induction declared using List.reverseRecOn with
  | nil => rfl
  | append_singleton declared signature ih =>
    rw [List.map_append, List.map_singleton, ← List.concat_eq_append, List.nodup_concat] at distinct
    rw [deduplicate_concat, if_neg distinct.1, ih distinct.2]

/-- Keeping the first declaration of each name keeps a part of the declarations in their order, with
every name once, and reports each declaration left out; done again it changes and reports
nothing. -/
theorem deduplicate_first_wins (source : String) (declared : List Signature) :
    let result := deduplicate source declared
    result.kept.Sublist declared ∧
    (result.kept.map (·.name)).Nodup ∧
    (∀ name, name ∈ result.kept.map (·.name) ↔ name ∈ declared.map (·.name)) ∧
    (∀ signature ∈ result.kept,
      declared.find? (fun other => other.name == signature.name) = some signature) ∧
    result.kept = declarations false declared ∧
    result.records =
      (declarations true declared).map (fun signature => duplicateRecord source signature.name) ∧
    ∀ again, deduplicate again result.kept = { kept := result.kept, records := [] } := by
  intro result
  have kept : result.kept = firstOfEach (·.name) declared := deduplicate_kept source declared
  have names : result.kept.map (·.name) = (declared.map (·.name)).eraseDups := by
    rw [kept, map_firstOfEach]
  have distinct : (result.kept.map (·.name)).Nodup := names ▸ nodup_eraseDups _
  have places := deduplicate_kept_places source declared
  refine ⟨places ▸ declarations_sublist false declared, distinct, ?_, ?_, places,
    deduplicate_records source declared, fun again => deduplicate_of_nodup again distinct⟩
  · intro name
    rw [names, List.mem_eraseDups]
  · intro signature member
    rw [kept] at member
    exact mem_firstOfEach_iff.mp member

end FfiBindings
