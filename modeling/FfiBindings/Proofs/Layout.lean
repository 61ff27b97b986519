import FfiBindings.Layout
import FfiBindings.Proofs.Index.Statements
import FfiBindings.Proofs.Path

set_option autoImplicit false

namespace FfiBindings

namespace Exports

theorem quotable_iff {path : String} :
    Quotable path ↔ ∀ c ∈ path.toList, isLineEnd c = false ∧ c ≠ '"' := by
  constructor
  · intro quotable c letter
    exact ⟨quotable.onLine c letter, fun quote => quotable.unquoted (quote ▸ letter)⟩
  · intro plain
    exact ⟨fun c letter => (plain c letter).1, fun quote => (plain _ quote).2 rfl⟩

theorem Quotable.append {first second : String} (quotable : Quotable first)
    (quotable' : Quotable second) : Quotable (first ++ second) := by
  rw [quotable_iff] at quotable quotable' ⊢
  intro c letter
  rw [String.toList_append, List.mem_append] at letter
  exact letter.elim (quotable c) (quotable' c)

theorem Quotable.intercalate {separator : String} (quotable : Quotable separator)
    {parts : List String} (plain : ∀ part ∈ parts, Quotable part) :
    Quotable (separator.intercalate parts) := by
  induction parts with
  | nil => exact ⟨by simp [OnLine], by simp⟩
  | cons part rest ih =>
    rw [List.forall_mem_cons] at plain
    cases rest with
    | nil => simpa using plain.1
    | cons next others =>
      rw [String.intercalate_cons_of_ne_nil (by simp)]
      exact (plain.1.append quotable).append (ih plain.2)

theorem Quotable.of_append {first second : String} (quotable : Quotable (first ++ second)) :
    Quotable first := by
  rw [quotable_iff] at quotable ⊢
  intro c letter
  exact quotable c (by simp [letter])

theorem Quotable.partsOf {text : String} (quotable : Quotable text) :
    ∀ part ∈ Path.partsOf text.toList, Quotable part := by
  intro part member
  obtain ⟨piece, split, rfl⟩ := List.mem_map.mp member
  rw [quotable_iff] at quotable ⊢
  intro c letter
  rw [String.toList_ofList] at letter
  exact quotable c (Text.subset_of_mem_splitAt (List.mem_filter.mp split).1 letter)

end Exports

open Exports

theorem Path.mem_div_parts {base : Path} {text part : String}
    (member : part ∈ (base / text).parts) : part ∈ base.parts ∨ part ∈ partsOf text.toList := by
  change part ∈ (base.join (ofString text)).parts at member
  unfold join at member
  split at member
  · exact .inr member
  · exact List.mem_append.mp member

namespace Location

theorem mem_steps {start : Location} {parts : List String} {part : String}
    (member : part ∈ start.steps parts) : part ∈ start ∨ part ∈ parts := by
  induction parts generalizing start with
  | nil => exact .inl member
  | cons next rest ih =>
    rcases ih member with inside | later
    · by_cases up : next = ".."
      · subst up
        exact .inl (List.dropLast_subset start inside)
      · rw [step_down up] at inside
        rcases List.mem_append.mp inside with before | last
        · exact .inl before
        · exact .inr (List.mem_cons.mpr (.inl (List.mem_singleton.mp last)))
    · exact .inr (List.mem_cons_of_mem next later)

theorem mem_relativeParts {start target : Location} {part : String}
    (member : part ∈ relativeParts start target) : part = ".." ∨ part ∈ target := by
  fun_induction relativeParts start target with
  | case1 first start second target same ih =>
    rcases ih member with up | down
    · exact .inl up
    · exact .inr (List.mem_cons_of_mem second down)
  | case2 first start second target other =>
    rcases List.mem_append.mp member with up | down
    · exact .inl (List.eq_of_mem_replicate up)
    · exact .inr down
  | case3 start target ended =>
    rcases List.mem_append.mp member with up | down
    · exact .inl (List.eq_of_mem_replicate up)
    · exact .inr down

end Location

theorem Layout.quotable_importPath {layout : Layout}
    (directory : ∀ part ∈ layout.modulesDir.parts, Quotable part) {moduleName : String}
    (name : Quotable moduleName) : Quotable (layout.importPath moduleName) := by
  have up : Quotable ".." := by decide
  have slash : Quotable "/" := by decide
  have here : Quotable "./" := by decide
  have target : ∀ part ∈ (layout.modulesDir / moduleName).location, Quotable part := by
    intro part member
    rcases Location.mem_steps member with root | inside
    · cases root
    · rcases Path.mem_div_parts inside with above | below
      · exact directory part above
      · exact name.partsOf part below
  have relative : Quotable (Location.relativePath layout.indexFile.parent.location
      (layout.modulesDir / moduleName).location).toString := by
    unfold Location.relativePath Path.toString
    split
    · exact ⟨by decide, by decide⟩
    · have joined : Quotable ("/".intercalate (Location.relativeParts
          layout.indexFile.parent.location (layout.modulesDir / moduleName).location)) := by
        refine slash.intercalate fun part member => ?_
        rcases Location.mem_relativeParts member with rfl | below
        · exact up
        · exact target part below
      simpa [Anchor.text] using joined
  unfold importPath
  simp only
  split
  · exact relative
  · exact here.append relative

end FfiBindings
