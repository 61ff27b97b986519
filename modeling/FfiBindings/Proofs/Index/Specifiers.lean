import FfiBindings.Index.Basic
import FfiBindings.Proofs.Library

set_option autoImplicit false

namespace FfiBindings

namespace Location

theorem steps_up_back (common up : Location) :
    steps (common ++ up) (List.replicate up.length "..") = common := by
  rw [steps_replicate_up]
  simp

theorem steps_relativeParts (start : Location) {target : Location} (clear : ".." ∉ target) :
    start.steps (relativeParts start target) = target := by
  obtain ⟨common, up, down, rfl, rfl, relative, -⟩ := relativeParts_cases start target
  have names : ∀ part ∈ down, part ≠ ".." := by
    rintro part member rfl
    exact clear (List.mem_append_right _ member)
  rw [relative, steps_append, steps_up_back, steps_of_names names]

end Location

namespace Path

theorem ofString_toString_here {parts : List String} (spelled : ∀ part ∈ parts, IsComponent part) :
    ofString (toString ⟨.here, parts⟩) = ⟨.here, parts⟩ := by
  by_cases some : parts = []
  · subst some
    decide
  · rw [toString_here some, ofString_intercalate spelled]

theorem anchorOf_toString_here_append {parts : List String}
    (spelled : ∀ part ∈ parts, IsComponent part) (suffix : String) :
    anchorOf (toString ⟨.here, parts⟩ ++ suffix).toList = .here := by
  by_cases some : parts = []
  · subst some
    rw [String.toList_append]
    rfl
  · rw [toString_here some, String.toList_append]
    exact anchorOf_intercalate_append some spelled _

theorem ofString_point_slash {text : String} (relative : (ofString text).anchor = .here) :
    ofString ("./" ++ text) = ofString text := by
  have letters : ("./" ++ text).toList = ['.'] ++ '/' :: text.toList := by simp
  have parts : partsOf ("./" ++ text).toList = partsOf text.toList := by
    rw [letters, partsOf_append]
    rfl
  have anchor : anchorOf ("./" ++ text).toList = anchorOf text.toList := by
    change anchorOf text.toList = .here at relative
    rw [letters, relative]
    rfl
  rw [ofString, ofString, parts, anchor]

theorem div_intercalate (base : Path) {parts : List String}
    (spelled : ∀ part ∈ parts, IsComponent part) :
    base / "/".intercalate parts = { base with parts := base.parts ++ parts } := by
  change base.join (ofString ("/".intercalate parts)) = _
  rw [ofString_intercalate spelled]
  rfl

theorem anchor_div (base : Path) {text : String} (relative : anchorOf text.toList = .here) :
    (base / text).anchor = base.anchor := by
  rw [div_of_relative relative]

theorem location_of_names {base : Path} {parts : List String} (names : ∀ part ∈ parts, IsName part) :
    location { base with parts := base.parts ++ parts } = base.location ++ parts := by
  rw [location, Location.steps_append, Location.steps_of_names fun part member => (names part member).2]
  rfl

theorem normal_eq_iff {path other : Path} (aligned : path.anchor = other.anchor) :
    path.normal = other.normal ↔ path.location = other.location := by
  simp [normal, aligned]

theorem toString_of_ne_nil {anchor : Anchor} {parts : List String} (some : parts ≠ []) :
    toString ⟨anchor, parts⟩ = anchor.text ++ "/".intercalate parts := by
  cases parts with
  | nil => exact absurd rfl some
  | cons first rest => cases anchor <;> rfl

end Path

namespace ExportIndex

theorem add_of_fresh {index : ExportIndex} {importPath : String}
    (fresh : importPath ∉ index.importPaths) (names : List String) :
    index.add importPath names = .ok { entries := index.entries ++ [(importPath, names)] } := by
  rw [add, contains, if_neg]
  simpa using fresh

theorem foldlM_add {index : ExportIndex} {entries : List (String × List String)}
    (fresh : (index.importPaths ++ entries.map (·.1)).Nodup) :
    entries.foldlM (fun index entry => index.add entry.1 entry.2) index =
      .ok { entries := index.entries ++ entries } := by
  induction entries generalizing index with
  | nil =>
    rw [List.append_nil]
    rfl
  | cons entry rest ih =>
    obtain ⟨importPath, names⟩ := entry
    have unknown : importPath ∉ index.importPaths := by
      intro member
      exact (List.nodup_append.mp fresh).2.2 importPath member importPath (by simp) rfl
    have later : (importPaths { entries := index.entries ++ [(importPath, names)] } ++
        rest.map (·.1)).Nodup := by
      simpa [importPaths] using fresh
    rw [List.foldlM_cons, add_of_fresh unknown names]
    change rest.foldlM _ _ = _
    rw [ih later, List.append_assoc]
    rfl

end ExportIndex

namespace Layout

variable {layout : Layout} {moduleName : String} {directories : List String} {stem : String}

theorem modulesDir_div_location (names : ∀ part ∈ directories ++ [stem], IsName part) :
    (layout.modulesDir / "/".intercalate (directories ++ [stem])).location =
      layout.modulesDir.location ++ (directories ++ [stem]) := by
  rw [Path.div_intercalate _ fun part member => (names part member).1, Path.location_of_names names]

theorem file_names (names : ∀ part ∈ directories ++ [stem], IsName part) :
    ∀ part ∈ directories ++ [stem ++ ".ts"], IsName part := by
  rw [List.forall_mem_append, List.forall_mem_singleton] at names ⊢
  exact ⟨names.1, isExtension_moduleSuffix.isName names.2.1.2.2⟩

theorem modulePath_eq (names : ∀ part ∈ directories ++ [stem], IsName part) :
    layout.modulePath ("/".intercalate (directories ++ [stem])) =
      { layout.modulesDir with
        parts := layout.modulesDir.parts ++ (directories ++ [stem ++ ".ts"]) } := by
  rw [modulePath, intercalate_concat_append,
    Path.div_intercalate _ fun part member => (file_names names part member).1]

theorem relativeParts_spelled (spelled : layout.modulesDir.Spelled)
    (names : ∀ part ∈ directories ++ [stem], IsName part) :
    ∀ part ∈ Location.relativeParts layout.indexFile.parent.location
      (layout.modulesDir.location ++ (directories ++ [stem])), IsComponent part := by
  intro part member
  rcases Location.mem_relativeParts member with rfl | inside
  · decide
  rcases List.mem_append.mp inside with above | below
  · rcases Location.mem_steps above with nothing | listed
    · cases nothing
    · exact spelled part listed
  · exact (names part below).1

theorem ofString_importPath_append (spelled : layout.modulesDir.Spelled)
    (names : ∀ part ∈ directories ++ [stem], IsName part) (suffix : String) :
    Path.ofString (layout.importPath ("/".intercalate (directories ++ [stem])) ++ suffix) =
      Path.ofString ((Location.relativePath layout.indexFile.parent.location
        (layout.modulesDir.location ++ (directories ++ [stem]))).toString ++ suffix) := by
  unfold importPath
  simp only [modulesDir_div_location names]
  split
  · rfl
  · rw [String.append_assoc]
    exact Path.ofString_point_slash
      (Path.anchorOf_toString_here_append (relativeParts_spelled spelled names) suffix)

theorem ofString_importPath (spelled : layout.modulesDir.Spelled)
    (names : ∀ part ∈ directories ++ [stem], IsName part) :
    Path.ofString (layout.importPath ("/".intercalate (directories ++ [stem]))) =
      Location.relativePath layout.indexFile.parent.location
        (layout.modulesDir.location ++ (directories ++ [stem])) := by
  have read := ofString_importPath_append spelled names ""
  rw [String.append_empty, String.append_empty] at read
  rw [read]
  exact Path.ofString_toString_here (relativeParts_spelled spelled names)

theorem importPath_begins (layout : Layout) (moduleName : String) :
    (layout.importPath moduleName).startsWith "./" = true ∨
      (layout.importPath moduleName).startsWith "../" = true := by
  unfold importPath
  simp only
  split
  · next up => exact .inr up
  · exact .inl (by simp)

section Spelled

variable (spelled : layout.modulesDir.Spelled)

include spelled

theorem importPath_location (names : ∀ part ∈ directories ++ [stem], IsName part) :
    (layout.indexFile.parent /
        layout.importPath ("/".intercalate (directories ++ [stem]))).location =
      layout.modulesDir.location ++ (directories ++ [stem]) := by
  have read := ofString_importPath spelled names
  rw [Path.ofString, Location.relativePath, Path.mk.injEq] at read
  have clear : ".." ∉ layout.modulesDir.location ++ (directories ++ [stem]) := by
    intro up
    rcases List.mem_append.mp up with above | below
    · exact Location.notMem_steps List.not_mem_nil above
    · exact (names ".." below).2 rfl
  rw [Path.location_div read.1, read.2, Location.steps_relativeParts _ clear]

theorem importPath_inj {moduleName other : String} (path : IsNamePath moduleName)
    (otherPath : IsNamePath other)
    (same : layout.importPath moduleName = layout.importPath other) : moduleName = other := by
  obtain ⟨directories, stem, names, rfl⟩ := path.exists_names
  obtain ⟨otherDirectories, otherStem, otherNames, rfl⟩ := otherPath.exists_names
  have place := importPath_location spelled names
  rw [same, importPath_location spelled otherNames, List.append_cancel_left_eq] at place
  rw [place]

theorem importPath_normal (aligned : layout.indexFile.anchor = layout.modulesDir.anchor)
    {moduleName : String} (path : IsNamePath moduleName) :
    (layout.indexFile.parent / layout.importPath moduleName).normal.toString ++ ".ts" =
      (layout.modulePath moduleName).normal.toString := by
  obtain ⟨directories, stem, names, rfl⟩ := path.exists_names
  have read := congrArg Path.anchor (ofString_importPath spelled names)
  have anchor : (layout.indexFile.parent /
      layout.importPath ("/".intercalate (directories ++ [stem]))).anchor =
        layout.modulesDir.anchor := by
    rw [Path.anchor_div _ read]
    exact aligned
  rw [modulePath_eq names, Path.normal, Path.normal, importPath_location spelled names, anchor,
    Path.location_of_names (file_names names), Path.toString_of_ne_nil (by simp),
    Path.toString_of_ne_nil (by simp), String.append_assoc, ← List.append_assoc,
    intercalate_concat_append, List.append_assoc]

-- A suffix behind the text of a specifier goes to the name of the module, unless the specifier goes
-- up only: then it is put behind a point.
theorem importPath_append_normal_iff (aligned : layout.indexFile.anchor = layout.modulesDir.anchor)
    {moduleName : String} (path : IsNamePath moduleName) :
    (layout.indexFile.parent / (layout.importPath moduleName ++ ".ts")).normal =
        (layout.modulePath moduleName).normal ↔
      (layout.modulesDir / moduleName).location.covers layout.indexFile.parent.location = false := by
  obtain ⟨directories, stem, names, rfl⟩ := path.exists_names
  have components := relativeParts_spelled spelled names
  have read := ofString_importPath_append spelled names ".ts"
  have relative := (congrArg Path.anchor read).trans
    (Path.anchorOf_toString_here_append components ".ts")
  have parts := congrArg Path.parts read
  simp only [Path.ofString] at relative parts
  have anchor : (layout.indexFile.parent /
      (layout.importPath ("/".intercalate (directories ++ [stem])) ++ ".ts")).anchor =
        (layout.modulePath ("/".intercalate (directories ++ [stem]))).anchor := by
    rw [Path.anchor_div _ relative, modulePath_eq names]
    exact aligned
  rw [Path.normal_eq_iff anchor, Path.location_div relative, parts, modulePath_eq names,
    Path.location_of_names (file_names names), modulesDir_div_location names]
  generalize layout.indexFile.parent.location = start at components ⊢
  have clear : ".." ∉ layout.modulesDir.location := Location.notMem_steps List.not_mem_nil
  generalize layout.modulesDir.location = above at components clear ⊢
  obtain ⟨common, up, down, rfl, ends, way, reached⟩ :=
    Location.relativeParts_cases start (above ++ (directories ++ [stem]))
  rw [way] at components
  rw [Location.relativePath, way]
  rcases List.eq_nil_or_concat down with rfl | ⟨init, last, rfl⟩
  · -- Only up: the suffix becomes part of another step, which changes how deep the way ends.
    rw [reached.mp rfl]
    rw [List.append_nil] at ends ⊢
    have some : common ≠ [] := by
      rw [← ends]
      simp
    have depth : (above ++ (directories ++ [stem ++ ".ts"])).length = common.length := by
      rw [← ends]
      simp
    refine iff_of_false (fun same => ?_) (by simp)
    exact @Location.length_steps_up common up some "ts" (by decide) (same ▸ depth)
  · -- The last step down is the name of the module, and the suffix goes to that.
    rw [List.concat_eq_append, ← List.append_assoc] at *
    rw [← List.append_assoc] at ends
    obtain ⟨same, rfl⟩ := List.append_singleton_inj.mp ends
    have file : IsName (stem ++ ".ts") := file_names names _ (by simp)
    have onward : ∀ part ∈ init, part ≠ ".." := by
      rintro part member rfl
      rcases List.mem_append.mp (same ▸ List.mem_append_right common member) with high | low
      · exact clear high
      · exact (names ".." (List.mem_append_left _ low)).2 rfl
    refine iff_of_true ?_ (by simpa using reached)
    rw [Path.toString_here (by simp), intercalate_concat_append,
      Path.partsOf_intercalate_concat fun part member => components part (List.mem_append_left _ member),
      Path.partsOf_component file.1, Location.steps_append, Location.steps_append,
      Location.steps_up_back, Location.steps_of_names onward,
      Location.steps_of_names (List.forall_mem_singleton.mpr file.2), ← same, List.append_assoc]

end Spelled

theorem modulesDir_spelled {root : Path} (spelled : root.Spelled) (names : LayoutNames) :
    (ofNames root names).modulesDir.Spelled := by
  intro part member
  rcases Path.mem_div_parts member with above | named
  · exact spelled part above
  · exact Path.mem_partsOf_isComponent named

end Layout

/-- Carried out from the directory of the index file, the specifier of a module ends at the file of its
binding but for the suffix. No two modules share a specifier, so an index takes them all. -/
theorem specifiers_lead_to_modules {root : Path} (spelled : root.Spelled) {names : LayoutNames}
    (relative : names.Relative) {layout : Layout} (laidOut : layout = Layout.ofNames root names) :
    (∀ moduleName, IsNamePath moduleName →
      (layout.indexFile.parent / layout.importPath moduleName).normal.toString ++ ".ts" =
          (layout.modulePath moduleName).normal.toString ∧
        ((layout.importPath moduleName).startsWith "./" = true ∨
          (layout.importPath moduleName).startsWith "../" = true)) ∧
    (∀ moduleName other, IsNamePath moduleName → IsNamePath other → moduleName ≠ other →
      layout.importPath moduleName ≠ layout.importPath other) ∧
    ∀ modules : List (String × List String), (∀ entry ∈ modules, IsNamePath entry.1) →
      (modules.map (·.1)).Nodup →
      (modules.map fun entry => (layout.importPath entry.1, entry.2)).foldlM
          (fun index entry => index.add entry.1 entry.2) ExportIndex.empty =
        .ok { entries := modules.map fun entry => (layout.importPath entry.1, entry.2) } := by
  have modulesDir : layout.modulesDir.Spelled := by
    rw [laidOut]
    exact Layout.modulesDir_spelled spelled names
  have aligned : layout.indexFile.anchor = layout.modulesDir.anchor := by
    rw [laidOut]
    exact (Path.anchor_div root (relative.output .indexFile)).trans
      (Path.anchor_div root (relative.output .modulesDir)).symm
  have apart : ∀ moduleName other, IsNamePath moduleName → IsNamePath other → moduleName ≠ other →
      layout.importPath moduleName ≠ layout.importPath other := by
    intro moduleName other path otherPath different same
    exact different (Layout.importPath_inj modulesDir path otherPath same)
  refine ⟨fun moduleName path => ?_, apart, fun modules paths distinct => ?_⟩
  · exact ⟨Layout.importPath_normal modulesDir aligned path, layout.importPath_begins moduleName⟩
  · apply ExportIndex.foldlM_add
    change (modules.map fun entry => (layout.importPath entry.1, entry.2)).map (·.1) |>.Nodup
    rw [List.map_map, List.Nodup, List.pairwise_map]
    rw [List.Nodup, List.pairwise_map] at distinct
    exact distinct.imp_of_mem fun inside otherInside different =>
      apart _ _ (paths _ inside) (paths _ otherInside) different

def nestedIndex : Layout :=
  Layout.ofNames (Location.path ["p"]) { indexFile := "mod/x/index.ts" }

theorem nestedIndex_specifiers :
    nestedIndex.importPath "x" = "./." ∧
      (nestedIndex.indexFile.parent / nestedIndex.importPath "x").normal.toString ++ ".ts" =
        "/p/mod/x.ts" ∧
      [("./.", ["f"]), ("./b", ["g"]), ("../y", ["f"])].foldlM
          (fun index entry => index.add entry.1 entry.2) ExportIndex.empty =
        .ok { entries := [("./.", ["f"]), ("./b", ["g"]), ("../y", ["f"])] } := by
  have spelled : (Location.path ["p"]).Spelled := by
    unfold Path.Spelled
    decide
  have relative : LayoutNames.Relative { indexFile := "mod/x/index.ts" } :=
    ⟨rfl, fun key => by cases key <;> rfl⟩
  have modules : ∀ entry ∈ [("x", ["f"]), ("x/b", ["g"]), ("y", ["f"])], IsNamePath entry.1 := by
    unfold IsNamePath
    decide
  have own : nestedIndex.importPath "x" = "./." := by decide
  have inside : nestedIndex.importPath "x/b" = "./b" := by decide
  have beside : nestedIndex.importPath "y" = "../y" := by decide +kernel
  have laidOut : nestedIndex = Layout.ofNames (Location.path ["p"]) { indexFile := "mod/x/index.ts" } :=
    rfl
  obtain ⟨leads, -, added⟩ := specifiers_lead_to_modules spelled relative laidOut
  refine ⟨own, ?_, ?_⟩
  · rw [(leads "x" (modules ("x", ["f"]) (by simp))).1]
    decide
  · simpa only [List.map_cons, List.map_nil, own, inside, beside] using added _ modules (by decide)

end FfiBindings
