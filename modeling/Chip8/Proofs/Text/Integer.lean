import Chip8.Proofs.Text.Numeral
import Chip8.Text.Integer
import Mathlib.Algebra.Group.Int.Defs

/-!
# Reading decimals back

A decimal number is written without blanks and underscores, so reading stops at
nothing but the limit on its digits (`ofText?_decimal`).
-/

namespace Chip8.Integer

theorem Short.of_lt {n : Int} (hw : 0 < width) (hn : n.natAbs < 10 ^ width)
    (h : width ≤ 4300) : Short n :=
  Nat.le_trans (Numeral.length_digits_le hw hn) h

theorem short_iff {n : Int} : Short n ↔ n.natAbs < 10 ^ 4300 :=
  Numeral.length_digits_le_iff (by decide) (by decide)

theorem natAbs_power (width : Nat) : (10 ^ width : Int).natAbs = 10 ^ width := by
  rw [Int.natAbs_pow]
  rfl

theorem not_short_power : ¬ Short (10 ^ 4300) := by
  rw [short_iff, natAbs_power]
  exact Nat.lt_irrefl _

theorem digit?_lowerDigit : ∀ d < 10, digit? (Numeral.lowerDigit d) = some d := by
  decide

theorem lowerDigit_plain : ∀ d < 10, Numeral.lowerDigit d ≠ '_' ∧ Numeral.lowerDigit d ≠ '-' ∧
    Numeral.lowerDigit d ≠ '+' ∧ isSpace (Numeral.lowerDigit d) = false := by
  decide

variable {ds : List Nat}

theorem digits?_lowerDigits (hne : ds ≠ []) (small : ∀ d ∈ ds, d < 10) :
    digits? (ds.map Numeral.lowerDigit) = some ds := by
  induction ds with
  | nil => exact absurd rfl hne
  | cons d rest ih =>
    obtain ⟨hd, hrest⟩ := List.forall_mem_cons.mp small
    have first := digit?_lowerDigit d hd
    cases rest with
    | nil => rw [List.map_singleton, digits?, first, Option.map_some]
    | cons e rest =>
      have plain := (lowerDigit_plain e (hrest e List.mem_cons_self)).1
      have later := ih (List.cons_ne_nil _ _) hrest
      rw [List.map_cons] at later
      rw [List.map_cons, List.map_cons, digits?, first, later]
      · rfl
      · exact fun h => List.cons_ne_nil _ _ h
      · exact fun _ h => plain (List.cons.inj h).1

theorem natural?_lowerDigits (hne : ds ≠ []) (small : ∀ d ∈ ds, d < 10) :
    natural? (ds.map Numeral.lowerDigit) =
      if ds.length ≤ 4300 then some (Numeral.value 10 ds) else none := by
  rw [natural?, digits?_lowerDigits hne small]
  change ((if ds.length ≤ 4300 then some () else none).bind
    fun _ => some (Numeral.value 10 ds)) = _
  split
  · rfl
  · rfl

theorem head_lowerDigits (small : ∀ d ∈ ds, d < 10)
    (h : ds.map Numeral.lowerDigit = c :: rest) : c ≠ '-' ∧ c ≠ '+' := by
  obtain ⟨d, _, rfl, rfl, -⟩ := List.map_eq_cons_iff.mp h
  obtain ⟨-, minus, plus, -⟩ := lowerDigit_plain d (small d List.mem_cons_self)
  exact ⟨minus, plus⟩

theorem trim_eq_self {text : List Char} (h : ∀ c ∈ text, isSpace c = false) :
    trim text = text := by
  have kept {l : List Char} (hl : ∀ c ∈ l, isSpace c = false) : l.dropWhile isSpace = l := by
    cases l with
    | nil => rfl
    | cons c rest => rw [List.dropWhile_cons_of_neg (by simp [hl])]
  rw [trim, kept h, kept fun c hc => h c (List.mem_reverse.mp hc), List.reverse_reverse]

-- ---------------------------------------------------------------------------
-- Decimals
-- ---------------------------------------------------------------------------

theorem toList_decimal (n : Int) : (Numeral.decimal n).toList =
    (if n < 0 then ['-'] else []) ++ (Numeral.digits 10 n.natAbs).map Numeral.lowerDigit := by
  rw [Numeral.decimal, String.toList_ofList, Numeral.zeroPadded, Nat.zero_sub]
  by_cases h : n < 0
  · simp [h, List.leftpad]
  · simp [h, List.leftpad]

theorem not_isSpace_decimal (n : Int) : ∀ c ∈ (Numeral.decimal n).toList, isSpace c = false := by
  intro c hc
  rw [toList_decimal] at hc
  rcases List.mem_append.mp hc with hc | hc
  · split at hc
    · rw [List.mem_singleton.mp hc]
      decide
    · cases hc
  · obtain ⟨d, hd, rfl⟩ := List.mem_map.mp hc
    exact (lowerDigit_plain d (Numeral.digits_lt (by decide) d hd)).2.2.2

theorem trim_decimal (n : Int) : trim (Numeral.decimal n).toList = (Numeral.decimal n).toList :=
  trim_eq_self (not_isSpace_decimal n)

theorem ofText?_decimal (n : Int) :
    ofText? (Numeral.decimal n) = if Short n then some n else none := by
  have small : ∀ d ∈ Numeral.digits 10 n.natAbs, d < 10 := Numeral.digits_lt (by decide)
  have read := natural?_lowerDigits (Numeral.digits_ne_nil 10 n.natAbs) small
  rw [Numeral.value_digits] at read
  rw [ofText?, trim_decimal, toList_decimal]
  by_cases negative : n < 0
  · have value : -(n.natAbs : Int) = n := by omega
    rw [if_pos negative]
    simp only [List.singleton_append, read]
    split
    · exact congrArg some value
    · rfl
  · have value : (n.natAbs : Int) = n := by omega
    rw [if_neg negative, List.nil_append]
    split
    · next h => exact absurd rfl (head_lowerDigits small h).1
    · next h => exact absurd rfl (head_lowerDigits small h).2
    · rw [read]
      split
      · exact congrArg some value
      · rfl

theorem blank_not_mem_decimal (n : Int) : ' ' ∉ (Numeral.decimal n).toList := by
  have blank : isSpace ' ' = true := by decide
  intro h
  exact Bool.false_ne_true ((not_isSpace_decimal n ' ' h).symm.trans blank)

end Chip8.Integer
