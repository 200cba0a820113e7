import Chip8.Text.Numeral
import Mathlib.Algebra.Group.Nat.Defs

/-!
# Reading numbers back

Zeros in front change no value and every digit reads as itself, so a number is
read back from its text (`ofHex?_hex`). Below a power of the base a number has no
more digits than the exponent: padded to that width it fills it exactly
(`length_hex`).
-/

namespace Chip8.Numeral

-- ---------------------------------------------------------------------------
-- Digits
-- ---------------------------------------------------------------------------

theorem digits_ne_nil (base n : Nat) : digits base n ≠ [] := by
  rw [digits]
  split
  · exact List.cons_ne_nil _ _
  · exact List.append_ne_nil_of_right_ne_nil _ (List.cons_ne_nil _ _)

theorem length_digits_le {base width n : Nat} (hw : 0 < width) (hn : n < base ^ width) :
    (digits base n).length ≤ width := by
  induction width generalizing n with
  | zero => cases hw
  | succ width ih =>
    rw [digits]
    split
    · exact hw
    · next h =>
      have hpos : 0 < width := by
        rcases Nat.eq_zero_or_pos width with rfl | hpos
        · simp at hn
          omega
        · exact hpos
      have hq : n / base < base ^ width :=
        Nat.div_lt_of_lt_mul (by rwa [Nat.pow_succ'] at hn)
      rw [List.length_append, List.length_singleton]
      exact Nat.add_le_add_right (ih hpos hq) 1

theorem lt_pow_length_digits {base : Nat} (hb : 2 ≤ base) (n : Nat) :
    n < base ^ (digits base n).length := by
  induction n using Nat.strongRecOn with
  | ind n ih =>
    rw [digits]
    split
    · next h =>
      rw [List.length_singleton, Nat.pow_one]
      omega
    · next h =>
      have quotient := ih (n / base) (Nat.div_lt_self (by omega) hb)
      rw [List.length_append, List.length_singleton, Nat.pow_succ]
      exact (Nat.div_lt_iff_lt_mul (by omega)).mp quotient

theorem length_digits_le_iff {base width n : Nat} (hb : 2 ≤ base) (hw : 0 < width) :
    (digits base n).length ≤ width ↔ n < base ^ width :=
  ⟨fun short => Nat.lt_of_lt_of_le (lt_pow_length_digits hb n)
      (Nat.pow_le_pow_right (Nat.lt_of_succ_le (Nat.le_of_succ_le hb)) short),
    length_digits_le hw⟩

theorem value_leftpad (base width : Nat) (ds : List Nat) :
    value base (List.leftpad width 0 ds) = value base ds := by
  have zeros (k : Nat) : (List.replicate k 0).foldl (fun acc d => acc * base + d) 0 = 0 := by
    induction k with
    | zero => rfl
    | succ k ih =>
      rw [List.replicate_succ, List.foldl_cons, Nat.zero_mul]
      exact ih
  rw [value, List.leftpad, List.foldl_append, zeros]
  rfl

theorem map_leftpad (f : α → β) (width : Nat) (a : α) (l : List α) :
    (List.leftpad width a l).map f = List.leftpad width (f a) (l.map f) := by
  simp [List.leftpad]

-- ---------------------------------------------------------------------------
-- Hexadecimal
-- ---------------------------------------------------------------------------

theorem toList_hex (width n : Nat) :
    (hex width n).toList = (List.leftpad width 0 (digits 16 n)).map upperDigit := by
  have sign : decide ((n : Int) < 0) = false := decide_eq_false (by omega)
  rw [hex, zeroPadded, sign, String.toList_ofList, map_leftpad]
  rfl

theorem length_hex {width n : Nat} (hw : 0 < width) (hn : n < 16 ^ width) :
    (hex width n).toList.length = width := by
  rw [toList_hex, List.length_map, List.length_leftpad]
  exact Nat.max_eq_left (length_digits_le hw hn)

theorem hexDigit?_upperDigit : ∀ d < 16, hexDigit? (upperDigit d) = some d := by
  decide

theorem mapM_hexDigit? {ds : List Nat} (h : ∀ d ∈ ds, d < 16) :
    (ds.map upperDigit).mapM hexDigit? = some ds := by
  induction ds with
  | nil => rfl
  | cons d rest ih =>
    obtain ⟨hd, hrest⟩ := List.forall_mem_cons.mp h
    rw [List.map_cons, List.mapM_cons, hexDigit?_upperDigit d hd, ih hrest]
    rfl

theorem leftpad_digits_lt (width n : Nat) : ∀ d ∈ List.leftpad width 0 (digits 16 n), d < 16 := by
  intro d hd
  rcases List.mem_append.mp hd with hd | hd
  · rw [List.eq_of_mem_replicate hd]
    decide
  · exact digits_lt (by decide) d hd

/-- Whatever the padding, a hexadecimal number reads as itself. -/
theorem ofHex?_hex (width n : Nat) : ofHex? (hex width n).toList = some n := by
  have hne : List.leftpad width 0 (digits 16 n) ≠ [] :=
    List.append_ne_nil_of_right_ne_nil _ (digits_ne_nil 16 n)
  rw [toList_hex, ofHex?, mapM_hexDigit? (leftpad_digits_lt width n), List.isEmpty_map,
    if_neg (mt List.isEmpty_iff.mp hne), Option.map_some, value_leftpad, value_digits]

theorem hex_inj {width m n : Nat} : hex width m = hex width n ↔ m = n := by
  refine ⟨fun same => ?_, fun same => congrArg (hex width ·) (congrArg Int.ofNat same)⟩
  have read := congrArg (fun text => ofHex? text.toList) same
  simpa only [ofHex?_hex, Option.some.injEq] using read

theorem blank_not_mem_hex (width : Nat) (n : Int) : ' ' ∉ (hex width n).toList := by
  have plain : ∀ d < 16, upperDigit d ≠ ' ' := by decide
  intro blank
  rw [hex, String.toList_ofList, zeroPadded] at blank
  rcases List.mem_append.mp blank with sign | padded
  · split at sign <;> simp at sign
  · rcases List.mem_append.mp padded with zero | digit
    · exact absurd (List.eq_of_mem_replicate zero) (by decide)
    · obtain ⟨d, hd, hblank⟩ := List.mem_map.mp digit
      exact plain d (digits_lt (by decide) d hd) hblank

theorem hex_negative {n : Int} (h : n < 0) (width : Nat) :
    hex (width + 1) n = "-" ++ hex width (-n) := by
  have later : ¬-n < 0 := by omega
  simp only [hex, zeroPadded, h, later, decide_true, decide_false, if_true, Int.natAbs_neg,
    String.ofList_append]
  rfl

end Chip8.Numeral
