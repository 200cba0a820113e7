/-!
# Banks of numbered cells

Registers, keys, stack slots, memory and screen lines are all banks: a fixed
number of cells, read and written one at a time by a number that is in range
by its type. Two banks are equal when every cell is (`Bank.ext_get`).
-/

namespace Chip8

abbrev Byte := BitVec 8
abbrev Word := BitVec 16

/-! Cell numbers wrap around at the sizes in use, none of which is zero. -/

instance neZero16 : @NeZero Nat Zero.ofOfNat0 16 := ⟨Nat.succ_ne_zero 15⟩
instance neZero32 : @NeZero Nat Zero.ofOfNat0 32 := ⟨Nat.succ_ne_zero 31⟩
instance neZero64 : @NeZero Nat Zero.ofOfNat0 64 := ⟨Nat.succ_ne_zero 63⟩
instance neZero4096 : @NeZero Nat Zero.ofOfNat0 4096 := ⟨Nat.succ_ne_zero 4095⟩

structure Bank (size : Nat) (α : Type) where
  cells : Vector α size
  deriving DecidableEq

namespace Bank

variable {size : Nat} {α : Type}

def get (bank : Bank size α) (i : Fin size) : α :=
  bank.cells[i]

def set (bank : Bank size α) (i : Fin size) (value : α) : Bank size α :=
  ⟨bank.cells.set i value⟩

def ofFn (f : Fin size → α) : Bank size α :=
  ⟨.ofFn f⟩

def fill (value : α) : Bank size α :=
  ⟨.replicate size value⟩

def toList (bank : Bank size α) : List α :=
  bank.cells.toList

theorem ext_get {first second : Bank size α} (h : ∀ i, first.get i = second.get i) :
    first = second := by
  cases first with
  | mk a => cases second with
    | mk b => exact congrArg mk (Vector.ext fun i hi => h ⟨i, hi⟩)

theorem get_set (bank : Bank size α) (i j : Fin size) (value : α) :
    (bank.set i value).get j = if i = j then value else bank.get j := by
  simp [get, set, Vector.getElem_set, Fin.ext_iff]

@[simp] theorem get_set_self (bank : Bank size α) (i : Fin size) (value : α) :
    (bank.set i value).get i = value := by
  simp [get_set]

theorem get_set_of_ne (bank : Bank size α) {i j : Fin size} (h : i ≠ j) (value : α) :
    (bank.set i value).get j = bank.get j := by
  simp [get_set, h]

@[simp] theorem get_ofFn (f : Fin size → α) (i : Fin size) : (ofFn f).get i = f i := by
  simp [get, ofFn]

@[simp] theorem get_fill (value : α) (i : Fin size) :
    (fill value : Bank size α).get i = value := by
  simp [get, fill]

@[simp] theorem set_get (bank : Bank size α) (i : Fin size) : bank.set i (bank.get i) = bank :=
  ext_get fun j => by
    rw [get_set]
    split
    · next h => rw [h]
    · rfl

@[simp] theorem set_set (bank : Bank size α) (i : Fin size) (first second : α) :
    (bank.set i first).set i second = bank.set i second :=
  ext_get fun j => by
    simp only [get_set]
    split
    · rfl
    · rfl

theorem set_comm (bank : Bank size α) {i j : Fin size} (h : i ≠ j) (first second : α) :
    (bank.set i first).set j second = (bank.set j second).set i first :=
  ext_get fun k => by
    simp only [get_set]
    split
    · next hj => rw [if_neg fun hi => h (hi.trans hj.symm)]
    · rfl

@[simp] theorem length_toList (bank : Bank size α) : bank.toList.length = size := by
  simp [toList]

theorem getElem_toList (bank : Bank size α) (i : Nat) (h : i < bank.toList.length) :
    bank.toList[i] = bank.get ⟨i, by simpa using h⟩ := by
  simp [toList, get]

/-- Write the values one after the other from cell `start` on; those that
would fall past the last cell are dropped. -/
def overlay (bank : Bank size α) (start : Nat) : List α → Bank size α
  | [] => bank
  | value :: rest =>
    if h : start < size then (bank.set ⟨start, h⟩ value).overlay (start + 1) rest else bank

theorem get_overlay (bank : Bank size α) (start : Nat) (values : List α) (i : Fin size) :
    (bank.overlay start values).get i =
      if start ≤ i.val then values[i.val - start]?.getD (bank.get i) else bank.get i := by
  induction values generalizing bank start with
  | nil => simp [overlay]
  | cons value rest ih =>
    have hi := i.isLt
    unfold overlay
    split
    · next hs =>
      rw [ih, get_set]
      rcases Nat.lt_trichotomy i.val start with h | h | h
      · have hn : (⟨start, hs⟩ : Fin size) ≠ i := fun he => by simp [← he] at h
        simp [hn, show ¬ start + 1 ≤ i.val by omega, show ¬ start ≤ i.val by omega]
      · have he : (⟨start, hs⟩ : Fin size) = i := Fin.ext h.symm
        simp [he, h, show ¬ start + 1 ≤ start by omega]
      · have hn : (⟨start, hs⟩ : Fin size) ≠ i := fun he => by simp [← he] at h
        obtain ⟨k, hk⟩ : ∃ k, i.val = start + 1 + k := ⟨i.val - (start + 1), by omega⟩
        simp [hn, show start + 1 ≤ i.val by omega, show start ≤ i.val by omega,
          show i.val - (start + 1) = k by omega, show i.val - start = k + 1 by omega]
    · next hs => rw [if_neg (by omega)]

theorem get_overlay_outside (bank : Bank size α) {start : Nat} {values : List α} {i : Fin size}
    (h : ¬ (start ≤ i.val ∧ i.val < start + values.length)) :
    (bank.overlay start values).get i = bank.get i := by
  rw [get_overlay]
  split
  · rw [List.getElem?_eq_none (by omega), Option.getD_none]
  · rfl

theorem get_overlay_inside (bank : Bank size α) {start j : Nat} {values : List α} {i : Fin size}
    (hi : i.val = start + j) (hj : j < values.length) :
    (bank.overlay start values).get i = values[j] := by
  have reached : start ≤ i.val := hi ▸ Nat.le_add_right start j
  have hk : i.val - start = j := by omega
  rw [get_overlay, if_pos reached, hk, List.getElem?_eq_getElem hj, Option.getD_some]

theorem overlay_eq {bank other : Bank size α} {start : Nat} {values : List α}
    (inside : ∀ i j (hj : j < values.length), i.val = start + j → values[j] = other.get i)
    (outside : ∀ i : Fin size, ¬ (start ≤ i.val ∧ i.val < start + values.length) →
      bank.get i = other.get i) : bank.overlay start values = other := by
  refine ext_get fun i => ?_
  by_cases covered : start ≤ i.val ∧ i.val < start + values.length
  · obtain ⟨j, hi⟩ := Nat.exists_eq_add_of_le covered.1
    have hj : j < values.length := by omega
    exact (get_overlay_inside bank hi hj).trans (inside i j hj hi)
  · exact (get_overlay_outside _ covered).trans (outside i covered)

end Bank

end Chip8
