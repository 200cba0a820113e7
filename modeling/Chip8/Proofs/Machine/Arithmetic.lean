import Chip8.Proofs.Machine.Perform

/-!
# Register arithmetic on numbers

The nine operations on two bytes, read as operations on numbers with the wrapping
written out (`number`) and with the condition under which the flag is raised
(`flagged`). `arithmetic_registers` says what they leave in the registers, whichever
registers `X` and `Y` are: the same one, or the flag register.
-/

namespace Chip8

namespace Arithmetic

def digit : Arithmetic → Fin 16
  | .copy => 0x0
  | .or => 0x1
  | .and => 0x2
  | .xor => 0x3
  | .add => 0x4
  | .subtract => 0x5
  | .shiftRight => 0x6
  | .subtractFrom => 0x7
  | .shiftLeft => 0xE

def number : Arithmetic → Nat → Nat → Int
  | .copy, _, b => b
  | .or, a, b => (a ||| b : Nat)
  | .and, a, b => (a &&& b : Nat)
  | .xor, a, b => (a ^^^ b : Nat)
  | .add, a, b => (a + b) % 256
  | .subtract, a, b => (a - b) % 256
  | .shiftRight, a, _ => a / 2
  | .subtractFrom, a, b => (b - a) % 256
  | .shiftLeft, a, _ => 2 * a % 256

def flagged (kind : Arithmetic) (a b before : Nat) : Nat :=
  match kind with
  | .copy | .or | .and | .xor => before
  | .add => if a + b > 255 then 1 else 0
  | .subtract => if a ≥ b then 1 else 0
  | .shiftRight => if a % 2 = 1 then 1 else 0
  | .subtractFrom => if b ≥ a then 1 else 0
  | .shiftLeft => if a ≥ 128 then 1 else 0

theorem operation_digit (kind : Arithmetic) (x y : Fin 16) :
    (⟨8, x, y, kind.digit⟩ : Instruction).operation = .arithmetic kind := by
  cases kind <;> rfl

theorem toNat_result (kind : Arithmetic) (a b : Byte) :
    ((kind.result a b).toNat : Int) = kind.number a.toNat b.toNat := by
  have ha := a.isLt
  have hb := b.isLt
  cases kind with
  | copy => rfl
  | or => exact congrArg Nat.cast (BitVec.toNat_or a b)
  | and => exact congrArg Nat.cast (BitVec.toNat_and a b)
  | xor => exact congrArg Nat.cast (BitVec.toNat_xor a b)
  | add =>
    simp only [result, number, BitVec.toNat_add]
    omega
  | subtract | subtractFrom =>
    simp only [result, number, BitVec.toNat_sub]
    omega
  | shiftRight =>
    simp only [result, number, BitVec.toNat_ushiftRight, Nat.shiftRight_eq_div_pow]
    omega
  | shiftLeft =>
    simp only [result, number, BitVec.toNat_shiftLeft, Nat.shiftLeft_eq]
    omega

theorem toNat_flagByte (flag : Prop) [Decidable flag] :
    (Machine.flagByte (decide flag)).toNat = if flag then 1 else 0 := by
  by_cases h : flag
  · simp [Machine.flagByte, h]
  · simp [Machine.flagByte, h]

theorem toNat_flag (kind : Arithmetic) (a b before : Byte) :
    (((kind.flag a b).map Machine.flagByte).getD before).toNat =
      kind.flagged a.toNat b.toNat before.toNat := by
  cases kind with
  | copy | or | and | xor => rfl
  | add | subtract | subtractFrom => exact toNat_flagByte _
  | shiftRight =>
    have odd : a.getLsbD 0 = decide (a.toNat % 2 = 1) := by
      rw [BitVec.getLsbD, Nat.testBit_zero]
    rw [flag, odd]
    exact toNat_flagByte _
  | shiftLeft =>
    have high : a.msb = decide (a.toNat ≥ 128) := BitVec.msb_eq_decide a
    rw [flag, high]
    exact toNat_flagByte _

end Arithmetic

namespace Machine

theorem execute_arithmetic (m : Machine) (kind : Arithmetic) (x y : Fin 16) :
    m.execute (0x8000 + 0x100 * x + 0x10 * y + kind.digit : Nat) = .ok (m.compute kind x y) := by
  have hi : Instruction.ofInt (0x8000 + 0x100 * x + 0x10 * y + kind.digit : Nat) =
      ⟨0x8, x, y, kind.digit⟩ := Instruction.ofInt_digits 0x8 x y kind.digit
  rw [execute, hi, kind.operation_digit]
  rfl

/-- Both numbers are read before anything is written, and the flag is written before
the result: where `X` is the flag register, the result is what stays in it. -/
theorem arithmetic_registers (m : Machine) (kind : Arithmetic) (x y : Fin 16) :
    let a := (m.registers.get x).toNat
    let b := (m.registers.get y).toNat
    ∃ after, m.execute (0x8000 + 0x100 * x + 0x10 * y + kind.digit : Nat) = .ok after ∧
      (after.registers.get x).toNat = kind.number a b ∧
      (x ≠ flagRegister → (after.registers.get flagRegister).toNat =
        kind.flagged a b (m.registers.get flagRegister).toNat) ∧
      (∀ r, r ≠ x → r ≠ flagRegister → after.registers.get r = m.registers.get r) ∧
      after = { m with registers := after.registers } := by
  intro a b
  refine ⟨_, m.execute_arithmetic kind x y, ?_, ?_, ?_, m.compute_eq kind x y⟩
  · rw [get_compute, if_pos rfl]
    exact kind.toNat_result _ _
  · intro other
    rw [get_compute, if_neg other, if_pos rfl]
    exact kind.toNat_flag _ _ _
  · intro r hx hf
    rw [get_compute, if_neg (Ne.symm hx), if_neg (Ne.symm hf)]

/-- The flag register added to itself keeps the sum and not the carry. -/
example : let m := (powerOn ⟨0, 0⟩).setRegister flagRegister 200
    (m.compute .add flagRegister flagRegister).registers.get flagRegister = 144 := by
  decide

end Machine

end Chip8
