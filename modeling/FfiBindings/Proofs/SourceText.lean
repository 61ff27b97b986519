import FfiBindings.Generation.Generate
import FfiBindings.Proofs.Extraction.Spelling
import FfiBindings.Proofs.Utf8

set_option autoImplicit false

namespace FfiBindings

namespace Text

theorem unifyNewlines_append (front : List Char) {back : List Char}
    (begins : back.head? ≠ some '\n') :
    unifyNewlines (front ++ back) = unifyNewlines front ++ unifyNewlines back := by
  fun_induction unifyNewlines front with
  | case1 => rfl
  | case2 rest ih => rw [List.cons_append, List.cons_append, unifyNewlines, ih, List.cons_append]
  | case3 rest alone ih =>
    have stillAlone : ∀ others, rest ++ back ≠ '\n' :: others := by
      intro others same
      cases rest with
      | nil => exact begins (by rw [← List.nil_append back, same, List.head?_cons])
      | cons c more => exact alone more (by rw [(List.cons.inj same).1])
    rw [List.cons_append, unifyNewlines.eq_3 _ stillAlone, ih, List.cons_append]
  | case4 c rest notPair notReturn ih =>
    rw [List.cons_append, unifyNewlines.eq_4 _ _ (fun _ same _ => notReturn same) notReturn, ih,
      List.cons_append]

theorem mem_of_mem_unifyNewlines {text : List Char} {c : Char} (other : c ≠ '\n')
    (member : c ∈ unifyNewlines text) : c ∈ text := by
  fun_induction unifyNewlines text with
  | case1 => exact member
  | case2 rest ih =>
    rcases List.mem_cons.mp member with rfl | later
    · exact absurd rfl other
    · exact List.mem_cons_of_mem _ (List.mem_cons_of_mem _ (ih later))
  | case3 rest alone ih =>
    rcases List.mem_cons.mp member with rfl | later
    · exact absurd rfl other
    · exact List.mem_cons_of_mem _ (ih later)
  | case4 d rest notPair notReturn ih =>
    rcases List.mem_cons.mp member with rfl | later
    · exact List.mem_cons_self
    · exact List.mem_cons_of_mem _ (ih later)

end Text

open Text

theorem Text.Utf8.starts_encode {text : List Char} (begins : text.head? = some '#') :
    Utf8.Starts (Utf8.encode text) := by
  obtain ⟨rest, rfl⟩ := List.head?_eq_some_iff.mp begins
  intro byte first
  obtain rfl : 0x23 = byte := Option.some.inj first
  decide

theorem sourceText_append (bytes : Bytes) {text : List Char} (begins : text.head? = some '#') :
    Generation.sourceText (bytes ++ Utf8.encode text) =
      Generation.sourceText bytes ++ unifyNewlines text := by
  have notLineFeed : text.head? ≠ some '\n' := by simp [begins]
  rw [Generation.sourceText, Generation.sourceText,
    Utf8.decodeLossy_append (Utf8.starts_encode begins), Utf8.decodeLossy_encode,
    unifyNewlines_append _ notLineFeed]

/-- Bytes without a hash do not change what is extracted behind them. -/
theorem extract_behind_bytes {bytes : Bytes} (clear : 0x23 ∉ bytes) {text : List Char}
    (begins : text.head? = some '#') :
    Extraction.extract (Generation.sourceText (bytes ++ Utf8.encode text)) =
      Extraction.extract (unifyNewlines text) := by
  have silent : '#' ∉ Generation.sourceText bytes := fun hash =>
    Utf8.hash_notMem_decodeLossy clear (mem_of_mem_unifyNewlines (by decide) hash)
  rw [sourceText_append bytes begins, Extraction.extract_of_notMem silent]

theorem truncated_extract :
    (0x23 : UInt8) ∉ [0x2F, 0x2F, 0x0D, 0xF0, 0x9F, 0x92] ∧
      Extraction.extract (Generation.sourceText ([0x2F, 0x2F, 0x0D, 0xF0, 0x9F, 0x92] ++
        utf8 "#[no_mangle]\r\npub extern \"C\" fn f() \x7b\x7d")) =
      Extraction.extract "#[no_mangle]\npub extern \"C\" fn f() \x7b\x7d".toList := by
  refine ⟨by decide, ?_⟩
  have behind := @extract_behind_bytes [0x2F, 0x2F, 0x0D, 0xF0, 0x9F, 0x92] (by decide)
    "#[no_mangle]\r\npub extern \"C\" fn f() \x7b\x7d".toList (by decide)
  have unified : unifyNewlines "#[no_mangle]\r\npub extern \"C\" fn f() \x7b\x7d".toList =
      "#[no_mangle]\npub extern \"C\" fn f() \x7b\x7d".toList := by decide +kernel
  rwa [unified] at behind

end FfiBindings
