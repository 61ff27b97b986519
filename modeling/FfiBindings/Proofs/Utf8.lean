import FfiBindings.Text.Utf8
import Mathlib.Algebra.Group.Nat.Defs
import Mathlib.Data.List.Basic

set_option autoImplicit false

namespace FfiBindings.Text

namespace Utf8

def Piece.shown : Piece → Char
  | .char c => c
  | .malformed _ _ => replacement

theorem decodeLossy_eq (bytes : Bytes) : decodeLossy bytes = (pieces 0 bytes).map (·.2.shown) := by
  rw [decodeLossy]
  refine List.map_congr_left ?_
  rintro ⟨place, _ | _⟩ - <;> rfl

theorem shown_pieces (bytes : Bytes) (offset : Nat) :
    (pieces offset bytes).map (·.2.shown) = decodeLossy bytes := by
  have same : ∀ other, (pieces offset bytes).map (·.2.shown) =
      (pieces other bytes).map (·.2.shown) := by
    intro other
    fun_induction pieces offset bytes generalizing other with
    | case1 => simp [pieces]
    | case2 offset first rest found ih => rw [pieces, List.map_cons, List.map_cons, ih]
  rw [same 0, decodeLossy_eq]

theorem lead?_eq_some {first low high : UInt8} {missing value : Nat}
    (led : lead? first = some (missing, low, high, value)) :
    ¬ first < 0x80 ∧ 0x80 ≤ low ∧ high ≤ 0xBF ∧
      0x80 ≤ (value * 64 + (low.toNat - 0x80)) * 64 ^ (missing - 1) := by
  unfold lead? at led
  simp only [Bool.and_eq_true, decide_eq_true_eq, beq_iff_eq, UInt8.le_iff_toNat_le,
    ← UInt8.toNat_inj, UInt8.reduceToNat] at led
  simp only [UInt8.lt_iff_toNat_lt, UInt8.reduceToNat]
  repeat' split at led
  all_goals cases led
  all_goals simp only [UInt8.reduceToNat, Nat.reduceSub, Nat.reducePow]
  all_goals refine ⟨by omega, by decide, by decide, by omega⟩

section Seam

-- The first of the bytes does not continue what stands in front of them.
def Starts (bytes : Bytes) : Prop :=
  ∀ byte ∈ bytes.head?, isContinuation byte = false

def Alike (found other : Piece × Nat) : Prop :=
  found.1.shown = other.1.shown ∧ found.2 = other.2

variable {back : Bytes} (starts : Starts back)

include starts

theorem continueWith_append (value length missing : Nat) (rest : Bytes) :
    Alike (continueWith value length missing (rest ++ back))
      (continueWith value length missing rest) := by
  fun_induction continueWith value length missing rest with
  | case1 => exact ⟨by rw [continueWith], by rw [continueWith]⟩
  | case2 value length missing =>
    -- The sequence breaks off: at the end of the bytes, or at the byte that begins the next piece.
    cases back with
    | nil => exact ⟨rfl, rfl⟩
    | cons byte more => simp [Alike, continueWith, starts byte rfl, Piece.shown]
  | case3 value length missing byte rest continues ih =>
    rw [List.cons_append, continueWith, if_pos continues]
    exact ih
  | case4 value length missing byte rest breaks =>
    rw [List.cons_append, continueWith, if_neg breaks]
    exact ⟨rfl, rfl⟩

theorem piece_append (first : UInt8) (rest : Bytes) :
    Alike (piece first (rest ++ back)) (piece first rest) := by
  unfold piece
  split
  · exact ⟨rfl, rfl⟩
  · split
    · exact ⟨rfl, rfl⟩
    · next missing low high value led =>
      cases rest with
      | cons second others =>
        rw [List.cons_append]
        simp only
        split
        · exact continueWith_append starts ..
        · exact ⟨rfl, rfl⟩
      | nil =>
        cases back with
        | nil => exact ⟨rfl, rfl⟩
        | cons byte more =>
          have outside : ¬ (decide (low ≤ byte) && decide (byte ≤ high)) = true := by
            intro inside
            have breaks := starts byte rfl
            obtain ⟨-, least, greatest, -⟩ := lead?_eq_some led
            simp only [isContinuation, Bool.and_eq_true, decide_eq_true_eq,
              Bool.and_eq_false_iff, decide_eq_false_iff_not] at inside breaks
            rcases breaks with below | above
            · exact below (UInt8.le_trans least inside.1)
            · exact above (UInt8.le_trans inside.2 greatest)
          simp only [List.nil_append, if_neg outside]
          exact ⟨rfl, rfl⟩

end Seam

theorem continueWith_length_le (value length missing : Nat) (rest : Bytes) :
    (continueWith value length missing rest).2 ≤ length + rest.length := by
  fun_induction continueWith value length missing rest with
  | case1 => simp
  | case2 => simp
  | case3 value length missing byte rest continues ih =>
    rw [List.length_cons]
    omega
  | case4 => simp

theorem piece_length_le (first : UInt8) (rest : Bytes) :
    (piece first rest).2 - 1 ≤ rest.length := by
  unfold piece
  split
  · simp
  · split
    · simp
    · next missing low high value led =>
      cases rest with
      | nil => simp
      | cons second others =>
        have := continueWith_length_le (value * 64 + (second.toNat - 0x80)) 2 (missing - 1) others
        simp only [List.length_cons]
        split <;> omega

theorem decodeLossy_append {back : Bytes} (starts : Starts back) (front : Bytes) :
    decodeLossy (front ++ back) = decodeLossy front ++ decodeLossy back := by
  rw [decodeLossy_eq, decodeLossy_eq front]
  fun_induction pieces 0 front with
  | case1 offset => rw [List.nil_append, shown_pieces, List.map_nil, List.nil_append]
  | case2 offset first rest found ih =>
    obtain ⟨shown, taken⟩ := piece_append starts first rest
    have within := piece_length_le first rest
    rw [List.cons_append, pieces, List.map_cons, List.map_cons, shown, taken,
      List.drop_append_of_le_length within, ih, List.cons_append]

theorem code_of_hash {value : Nat} (same : Char.ofNat value = '#') : value = 0x23 := by
  by_cases valid : value.isValidChar
  · rw [Char.ofNat, dif_pos valid] at same
    exact congrArg Char.toNat same
  · rw [Char.ofNat, dif_neg valid] at same
    exact absurd same (by decide)

theorem continueWith_ne_hash {value missing : Nat} (beyond : 0x80 ≤ value * 64 ^ missing)
    (length : Nat) (rest : Bytes) : (continueWith value length missing rest).1.shown ≠ '#' := by
  fun_induction continueWith value length missing rest with
  | case1 value length =>
    intro same
    have : value = 0x23 := code_of_hash same
    omega
  | case2 => exact (by decide : replacement ≠ '#')
  | case3 value length missing byte rest continues ih =>
    apply ih
    calc 0x80 ≤ value * 64 ^ (missing + 1) := beyond
      _ = value * 64 * 64 ^ missing := by rw [Nat.pow_succ', Nat.mul_assoc]
      _ ≤ _ := Nat.mul_le_mul_right _ (Nat.le_add_right _ _)
  | case4 => exact (by decide : replacement ≠ '#')

theorem piece_ne_hash {first : UInt8} (other : first ≠ 0x23) (rest : Bytes) :
    (piece first rest).1.shown ≠ '#' := by
  unfold piece
  split
  · exact fun same => other (UInt8.toNat_inj.mp (code_of_hash same))
  · split
    · exact (by decide : replacement ≠ '#')
    · next missing low high value led =>
      split
      · exact (by decide : replacement ≠ '#')
      · next second others =>
        split
        · next inside =>
          simp only [Bool.and_eq_true, decide_eq_true_eq, UInt8.le_iff_toNat_le] at inside
          apply continueWith_ne_hash
          calc 0x80 ≤ (value * 64 + (low.toNat - 0x80)) * 64 ^ (missing - 1) :=
                (lead?_eq_some led).2.2.2
            _ ≤ _ := Nat.mul_le_mul_right _ (by omega)
        · exact (by decide : replacement ≠ '#')

theorem hash_notMem_decodeLossy {bytes : Bytes} (clear : 0x23 ∉ bytes) :
    '#' ∉ decodeLossy bytes := by
  rw [decodeLossy_eq]
  fun_induction pieces 0 bytes with
  | case1 => exact List.not_mem_nil
  | case2 offset first rest found ih =>
    rw [List.mem_cons, not_or] at clear
    rw [List.map_cons, List.mem_cons, not_or]
    exact ⟨Ne.symm (piece_ne_hash (Ne.symm clear.1) rest),
      ih fun member => clear.2 (List.mem_of_mem_drop member)⟩

theorem toNat_tail (bits : Nat) : (UInt8.ofNat (bits % 0x40 + 0x80)).toNat = bits % 0x40 + 0x80 := by
  rw [UInt8.toNat_ofNat']
  omega

theorem isContinuation_tail (bits : Nat) :
    isContinuation (UInt8.ofNat (bits % 0x40 + 0x80)) = true := by
  simp only [isContinuation, UInt8.le_iff_toNat_le, UInt8.reduceToNat, toNat_tail,
    Bool.and_eq_true, decide_eq_true_eq]
  omega

theorem continueWith_tail (value length missing bits : Nat) (rest : Bytes) :
    continueWith value length (missing + 1) (UInt8.ofNat (bits % 0x40 + 0x80) :: rest) =
      continueWith (value * 64 + bits % 0x40) (length + 1) missing rest := by
  rw [continueWith, if_pos (isContinuation_tail bits), toNat_tail, Nat.add_sub_cancel]

theorem lead?_two : ∀ bits < 0x1E,
    lead? (UInt8.ofNat (bits + 2 + 0xC0)) = some (1, 0x80, 0xBF, bits + 2) := by
  decide

theorem lead?_three : ∀ bits < 0x10, lead? (UInt8.ofNat (bits + 0xE0)) =
    some (2, if bits = 0 then 0xA0 else 0x80, if bits = 0xD then 0x9F else 0xBF, bits) := by
  decide

theorem lead?_four : ∀ bits < 5, lead? (UInt8.ofNat (bits + 0xF0)) =
    some (3, if bits = 0 then 0x90 else 0x80, if bits = 4 then 0x8F else 0xBF, bits) := by
  decide

theorem piece_of_lead {first low high : UInt8} {missing value bits : Nat}
    (led : lead? first = some (missing + 1, low, high, value))
    (least : low.toNat ≤ bits % 0x40 + 0x80) (greatest : bits % 0x40 + 0x80 ≤ high.toNat)
    (rest : Bytes) :
    piece first (UInt8.ofNat (bits % 0x40 + 0x80) :: rest) =
      continueWith (value * 64 + bits % 0x40) 2 missing rest := by
  have inside : (decide (low ≤ UInt8.ofNat (bits % 0x40 + 0x80)) &&
      decide (UInt8.ofNat (bits % 0x40 + 0x80) ≤ high)) = true := by
    simp only [UInt8.le_iff_toNat_le, toNat_tail, Bool.and_eq_true, decide_eq_true_eq]
    exact ⟨least, greatest⟩
  rw [piece, if_neg (lead?_eq_some led).1, led]
  simp only [if_pos inside, toNat_tail, Nat.add_sub_cancel]

section Encoded

variable {value : Nat} (rest : Bytes)

theorem piece_one (small : value ≤ 0x7F) :
    piece (UInt8.ofNat value) rest = (.char (Char.ofNat value), 1) := by
  have code : (UInt8.ofNat value).toNat = value := by
    rw [UInt8.toNat_ofNat']
    omega
  have single : UInt8.ofNat value < 0x80 := by
    rw [UInt8.lt_iff_toNat_lt, code]
    exact Nat.lt_succ_of_le small
  rw [piece, if_pos single, code]

theorem piece_two (large : 0x7F < value) (small : value ≤ 0x7FF) :
    piece (UInt8.ofNat (value / 64 % 0x20 + 0xC0)) (UInt8.ofNat (value % 0x40 + 0x80) :: rest) =
      (.char (Char.ofNat value), 2) := by
  have led := lead?_two (value / 64 - 2) (by omega)
  rw [Nat.sub_add_cancel (by omega)] at led
  have code : value / 64 * 64 + value % 0x40 = value := by omega
  rw [Nat.mod_eq_of_lt (by omega : value / 64 < 0x20),
    piece_of_lead led (by simp only [UInt8.reduceToNat]; omega)
      (by simp only [UInt8.reduceToNat]; omega), continueWith, code]

theorem piece_three (large : 0x7FF < value) (small : value ≤ 0xFFFF)
    (valid : value < 0xD800 ∨ 0xDFFF < value) :
    piece (UInt8.ofNat (value / 4096 % 0x10 + 0xE0))
        (UInt8.ofNat (value / 64 % 0x40 + 0x80) :: UInt8.ofNat (value % 0x40 + 0x80) :: rest) =
      (.char (Char.ofNat value), 3) := by
  have led := lead?_three (value / 4096) (by omega)
  have code : (value / 4096 * 64 + value / 64 % 0x40) * 64 + value % 0x40 = value := by omega
  rw [Nat.mod_eq_of_lt (by omega : value / 4096 < 0x10), piece_of_lead led, continueWith_tail,
    continueWith, code]
  · split <;> simp only [UInt8.reduceToNat] <;> omega
  · split <;> simp only [UInt8.reduceToNat] <;> omega

theorem piece_four (large : 0xFFFF < value) (small : value < 0x110000) :
    piece (UInt8.ofNat (value / 262144 % 0x08 + 0xF0))
        (UInt8.ofNat (value / 4096 % 0x40 + 0x80) :: UInt8.ofNat (value / 64 % 0x40 + 0x80) ::
          UInt8.ofNat (value % 0x40 + 0x80) :: rest) =
      (.char (Char.ofNat value), 4) := by
  have led := lead?_four (value / 262144) (by omega)
  have code : ((value / 262144 * 64 + value / 4096 % 0x40) * 64 + value / 64 % 0x40) * 64 +
      value % 0x40 = value := by omega
  rw [Nat.mod_eq_of_lt (by omega : value / 262144 < 0x08), piece_of_lead led, continueWith_tail,
    continueWith_tail, continueWith, code]
  · split <;> simp only [UInt8.reduceToNat] <;> omega
  · split <;> simp only [UInt8.reduceToNat] <;> omega

end Encoded

theorem piece_encodeChar (c : Char) :
    ∃ first others, String.utf8EncodeChar c = first :: others ∧
      ∀ rest, piece first (others ++ rest) = (.char c, others.length + 1) := by
  have valid : c.val.toNat < 0xD800 ∨ 0xDFFF < c.val.toNat ∧ c.val.toNat < 0x110000 := c.valid
  have spelled : Char.ofNat c.val.toNat = c := Char.ofNat_toNat c
  simp only [String.utf8EncodeChar]
  -- Which sequence is written, and which one is read, depends on the same bounds.
  split
  · next small =>
    refine ⟨_, [], rfl, fun rest => ?_⟩
    rw [List.nil_append, piece_one rest small, spelled, List.length_nil]
  · next beyondOne =>
    split
    · next small =>
      refine ⟨_, [_], rfl, fun rest => ?_⟩
      rw [List.singleton_append, piece_two rest (Nat.lt_of_not_le beyondOne) small, spelled]
      rfl
    · next beyondTwo =>
      split
      · next small =>
        refine ⟨_, [_, _], rfl, fun rest => ?_⟩
        have found := piece_three rest (Nat.lt_of_not_le beyondTwo) small (by omega)
        rwa [spelled] at found
      · next beyondThree =>
        refine ⟨_, [_, _, _], rfl, fun rest => ?_⟩
        have found := piece_four rest (Nat.lt_of_not_le beyondThree) (by omega)
        rwa [spelled] at found

theorem pieces_encode (offset : Nat) (text : List Char) :
    (pieces offset (encode text)).map (·.2) = text.map .char := by
  induction text generalizing offset with
  | nil =>
    rw [encode, List.flatMap_nil, pieces]
    rfl
  | cons c rest ih =>
    obtain ⟨first, others, written, read⟩ := piece_encodeChar c
    rw [encode, List.flatMap_cons, ← encode, written, List.cons_append, pieces, read,
      Nat.add_sub_cancel, List.drop_left, List.map_cons, List.map_cons, ih]

theorem decodeLossy_encode (text : List Char) : decodeLossy (encode text) = text := by
  have shown : (pieces 0 (encode text)).map (·.2.shown) = (text.map Piece.char).map Piece.shown := by
    rw [← pieces_encode 0 text, List.map_map]
    rfl
  rw [decodeLossy_eq, shown, List.map_map]
  exact List.map_id text

theorem readPieces_chars {bytes : Bytes} {found : List (Nat × Piece)} {text : List Char}
    (chars : found.map (·.2) = text.map .char) : readPieces bytes found = .ok text := by
  induction text generalizing found with
  | nil =>
    obtain rfl : found = [] := List.map_eq_nil_iff.mp chars
    rfl
  | cons c rest ih =>
    obtain ⟨⟨offset, _⟩, others, rfl, rfl, left⟩ := List.map_eq_cons_iff.mp chars
    rw [readPieces, ih left]
    rfl

theorem decode?_encode (text : List Char) : decode? (encode text) = .ok text :=
  readPieces_chars (pieces_encode 0 text)

end Utf8

theorem utf8_inj {first second : String} : utf8 first = utf8 second ↔ first = second := by
  refine ⟨fun same => ?_, congrArg utf8⟩
  have decoded := congrArg Utf8.decodeLossy same
  rw [utf8, utf8, Utf8.decodeLossy_encode, Utf8.decodeLossy_encode] at decoded
  exact String.toList_inj.mp decoded

end FfiBindings.Text
