import Chip8.Machine.Clock

/-!
# Operations that succeed

Six operations can fault. Each lemma reads the success of one of them as the
access it made and the machine it left; the other operations always succeed.
The three rules that depend on a test are given as one update, so that what
they leave alone can be read off.
-/

namespace Chip8

theorem bind_ok_iff {x : Except ε α} {f : α → Except ε β} :
    x >>= f = .ok b ↔ ∃ a, x = .ok a ∧ f a = .ok b := by
  cases x with
  | error => simp [bind, Except.bind]
  | ok => simp [bind, Except.bind]

theorem pure_ok_iff : (pure a : Except ε α) = .ok b ↔ b = a := by
  simp [pure, Except.pure, eq_comm]

-- ---------------------------------------------------------------------------
-- Memory
-- ---------------------------------------------------------------------------

namespace Memory

theorem load_ok_iff {memory : Memory} :
    memory.load address length = .ok bytes ↔ ∃ h : address + length ≤ 4096,
      bytes = List.ofFn fun i : Fin length =>
        memory.get ⟨address + i, Nat.lt_of_lt_of_le (Nat.add_lt_add_left i.isLt address) h⟩ := by
  unfold load
  split
  · next h => simp [h, eq_comm]
  · next h => simp [h]

theorem store_ok_iff {memory : Memory} :
    memory.store address bytes = .ok after ↔
      address + bytes.length ≤ 4096 ∧ after = memory.overlay address bytes := by
  unfold store
  split
  · next h => simp [h, eq_comm]
  · next h => simp [h]

theorem word_ok_iff {memory : Memory} {address : Nat} {word : Word} :
    memory.word address = .ok word ↔ ∃ h : address + 1 < 4096,
      word = memory.get ⟨address, by omega⟩ ++ memory.get ⟨address + 1, h⟩ := by
  unfold Memory.word
  split
  · next h =>
    have hb : address + 1 < 4096 := by omega
    simp [hb, eq_comm]
  · next h =>
    have hb : ¬ address + 1 < 4096 := by omega
    simp [hb]

instance (memory : Memory) (address : Nat) (word : Word) :
    Decidable (memory.word address = .ok word) :=
  decidable_of_iff _ word_ok_iff.symm

end Memory

namespace Machine

-- ---------------------------------------------------------------------------
-- Rules with a test in them
-- ---------------------------------------------------------------------------

theorem skipIf_eq (m : Machine) (condition : Bool) :
    m.skipIf condition = { m with pc := if condition then m.pc + 2 else m.pc } := by
  cases condition with
  | false => rfl
  | true => rfl

theorem compute_eq (m : Machine) (kind : Arithmetic) (x y : Fin 16) :
    m.compute kind x y = { m with registers := (m.compute kind x y).registers } := by
  cases h : kind.flag (m.registers.get x) (m.registers.get y) with
  | none => simp [compute, h, setRegister]
  | some flag => simp [compute, h, setRegister]

theorem get_compute (m : Machine) (kind : Arithmetic) (x y r : Fin 16) :
    (m.compute kind x y).registers.get r =
      if x = r then kind.result (m.registers.get x) (m.registers.get y)
      else if flagRegister = r then
        ((kind.flag (m.registers.get x) (m.registers.get y)).map flagByte).getD (m.registers.get r)
      else m.registers.get r := by
  cases h : kind.flag (m.registers.get x) (m.registers.get y) with
  | none => simp [compute, h, setRegister, Bank.get_set]
  | some flag => simp [compute, h, setRegister, Bank.get_set]

theorem takeKey_eq (m : Machine) (x : Fin 16) :
    m.takeKey x = { m with
      registers := (m.takeKey x).registers
      status := (m.takeKey x).status } := by
  unfold takeKey
  split
  · rfl
  · rfl

-- ---------------------------------------------------------------------------
-- Rules that can fault
-- ---------------------------------------------------------------------------

variable {m after : Machine} {i : Instruction}

theorem perform_ret_ok : m.perform i .ret = .ok after ↔
    ∃ address stack, m.stack.pop m.pc.toNat = .ok (address, stack) ∧
      after = { m with stack := stack, pc := address } := by
  simp only [perform, bind_ok_iff, pure_ok_iff, Prod.exists]

theorem perform_call_ok : m.perform i .call = .ok after ↔
    ∃ stack, m.stack.push m.pc m.pc.toNat = .ok stack ∧
      after = { m with stack := stack, pc := i.address } := by
  simp only [perform, bind_ok_iff, pure_ok_iff]

theorem perform_draw_ok : m.perform i .draw = .ok after ↔
    ∃ sprite, m.memory.load m.index.toNat i.n = .ok sprite ∧
      after = { m.setRegister flagRegister (flagByte (m.display.collides sprite
          (Fin.ofNat 64 (m.registers.get i.x).toNat)
          (Fin.ofNat 32 (m.registers.get i.y).toNat))) with
        display := m.display.draw sprite (Fin.ofNat 64 (m.registers.get i.x).toNat)
          (Fin.ofNat 32 (m.registers.get i.y).toNat) } := by
  simp only [perform, drawSprite, bind_ok_iff, pure_ok_iff]

@[simp] theorem length_decimalDigits (value : Byte) : (decimalDigits value).length = 3 := rfl

@[simp] theorem length_firstRegisters (m : Machine) (x : Fin 16) :
    (m.firstRegisters (x + 1)).length = x + 1 := by
  rw [firstRegisters, List.length_take, Bank.length_toList]
  exact Nat.min_eq_left x.isLt

theorem storeAtIndex_ok : m.storeAtIndex bytes = .ok after ↔
    m.index.toNat + bytes.length ≤ 4096 ∧
      after = { m with memory := m.memory.overlay m.index.toNat bytes } := by
  simp only [storeAtIndex, bind_ok_iff, pure_ok_iff, Memory.store_ok_iff]
  constructor
  · rintro ⟨_, ⟨h, rfl⟩, rfl⟩
    exact ⟨h, rfl⟩
  · rintro ⟨h, rfl⟩
    exact ⟨_, ⟨h, rfl⟩, rfl⟩

theorem perform_loadRegisters_ok : m.perform i .loadRegisters = .ok after ↔
    ∃ bytes, m.memory.load m.index.toNat (i.x + 1) = .ok bytes ∧
      after = { m with registers := m.registers.overlay 0 bytes } := by
  simp only [perform, bind_ok_iff, pure_ok_iff]

end Machine

end Chip8
