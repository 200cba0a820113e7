import Chip8.Proofs.Machine.Run

/-!
# Which instructions fault

`Fails` lists the ways in which an instruction can go wrong: a call on a full
stack, a return on an empty one, and a block of memory that reaches past the
end. `perform_error_iff` says that there are no others, and `clock_past_iff` that
a clock adds only the word that cannot be fetched. Four operations work on a
block; `block_fault_iff` compares their faults with the cells they need.
-/

namespace Chip8

/-- How many bytes the operation reads or writes from the index register on, if
it works on memory at all. -/
def Operation.block? (i : Instruction) : Operation → Option Nat
  | .draw => some i.n
  | .storeDecimal => some 3
  | .storeRegisters | .loadRegisters => some (i.x + 1)
  | _ => none

theorem bind_error_iff {x : Except ε α} {f : α → Except ε β} :
    x >>= f = .error e ↔ x = .error e ∨ ∃ a, x = .ok a ∧ f a = .error e := by
  cases x with
  | error => simp [bind, Except.bind]
  | ok => simp [bind, Except.bind]

theorem pure_ne_error : (pure a : Except ε α) ≠ .error e := nofun

-- ---------------------------------------------------------------------------
-- Stack and memory
-- ---------------------------------------------------------------------------

theorem CallStack.push_error_iff {stack : CallStack} {address : Word} :
    stack.push address pc = .error fault ↔
      15 ≤ stack.depth.val ∧ fault = .stackOverflow pc stack.depth := by
  unfold push maxDepth
  split
  · next h => simp [Nat.not_le.mpr h]
  · next h => simp [Nat.le_of_not_lt h, eq_comm]

theorem CallStack.pop_error_iff {stack : CallStack} :
    stack.pop pc = .error fault ↔ stack.depth.val = 0 ∧ fault = .stackUnderflow pc := by
  unfold pop
  split
  · next h => simp [Nat.ne_of_gt h]
  · next h => simp [Nat.eq_zero_of_not_pos h, eq_comm]

theorem Memory.load_error_iff {memory : Memory} {address length : Nat} :
    memory.load address length = .error fault ↔
      4096 < address + length ∧ fault = .outOfRange address length := by
  unfold load
  split
  · next h => simp [Nat.not_lt.mpr h]
  · next h => simp [Nat.lt_of_not_le h, eq_comm]

theorem Memory.store_error_iff {memory : Memory} {address : Nat} {bytes : List Byte} :
    memory.store address bytes = .error fault ↔
      4096 < address + bytes.length ∧ fault = .outOfRange address bytes.length := by
  unfold store
  split
  · next h => simp [Nat.not_lt.mpr h]
  · next h => simp [Nat.lt_of_not_le h, eq_comm]

theorem Memory.word_error_iff {memory : Memory} {address : Nat} :
    memory.word address = .error fault ↔ 4094 < address ∧ fault = .outOfRange address 2 := by
  unfold word
  split
  · next h =>
    have hb : ¬ 4094 < address := by omega
    simp [hb]
  · next h =>
    have hb : 4094 < address := by omega
    simp [hb, eq_comm]

-- ---------------------------------------------------------------------------
-- The sprite of no lines
-- ---------------------------------------------------------------------------

theorem Display.draw_nil (display : Display) (left : Fin 64) (top : Fin 32) :
    display.draw [] left top = display :=
  ext_pixel fun x y => by
    rw [pixel_draw, Sprite.covers, Sprite.bit, List.getElem?_nil, Bool.xor_false]

theorem Display.collides_nil (display : Display) (left : Fin 64) (top : Fin 32) :
    display.collides [] left top = false := by
  simp [collides, Sprite.covers, Sprite.bit]

namespace Machine

variable {m : Machine} {i : Instruction} {op : Operation} {fault : Fault}

-- ---------------------------------------------------------------------------
-- Every operation
-- ---------------------------------------------------------------------------

inductive Fails (m : Machine) (i : Instruction) : Operation → Fault → Prop
  | overflow (full : m.stack.depth.val = 15) : Fails m i .call (.stackOverflow m.pc.toNat 15)
  | underflow (empty : m.stack.depth.val = 0) : Fails m i .ret (.stackUnderflow m.pc.toNat)
  | outside {op : Operation} {length : Nat} (block : op.block? i = some length)
      (past : 4096 < m.index.toNat + length) : Fails m i op (.outOfRange m.index.toNat length)

theorem Fails.block_iff {length : Nat} (block : op.block? i = some length) :
    Fails m i op fault ↔
      4096 < m.index.toNat + length ∧ fault = .outOfRange m.index.toNat length := by
  constructor
  · intro h
    cases h with
    | overflow | underflow => cases block
    | outside other past =>
      cases block.symm.trans other
      exact ⟨past, rfl⟩
  · rintro ⟨past, rfl⟩
    exact .outside block past

theorem Fails.call_iff : Fails m i .call fault ↔
    m.stack.depth.val = 15 ∧ fault = .stackOverflow m.pc.toNat 15 := by
  constructor
  · intro h
    cases h with
    | overflow full => exact ⟨full, rfl⟩
    | outside block past => cases block
  · rintro ⟨full, rfl⟩
    exact .overflow full

theorem Fails.ret_iff : Fails m i .ret fault ↔
    m.stack.depth.val = 0 ∧ fault = .stackUnderflow m.pc.toNat := by
  constructor
  · intro h
    cases h with
    | underflow empty => exact ⟨empty, rfl⟩
    | outside block past => cases block
  · rintro ⟨empty, rfl⟩
    exact .underflow empty

theorem Fails.past {address length : Nat} (h : Fails m i op (.outOfRange address length)) :
    4096 < address + length := by
  generalize he : Fault.outOfRange address length = fault at h
  cases h with
  | overflow | underflow => cases he
  | outside block past =>
    obtain ⟨ha, rfl⟩ := Fault.outOfRange.inj he
    rwa [Int.ofNat.inj ha]

theorem storeAtIndex_error : m.storeAtIndex bytes = .error fault ↔
    4096 < m.index.toNat + bytes.length ∧ fault = .outOfRange m.index.toNat bytes.length := by
  simp only [storeAtIndex, bind_error_iff, Memory.store_error_iff, pure_ne_error, and_false,
    exists_false, or_false]

theorem perform_block_error {length : Nat} (block : op.block? i = some length) :
    m.perform i op = .error fault ↔
      4096 < m.index.toNat + length ∧ fault = .outOfRange m.index.toNat length := by
  cases op with
  | draw =>
    cases block
    simp only [perform, drawSprite, bind_error_iff, Memory.load_error_iff, pure_ne_error, and_false,
      exists_false, or_false]
  | storeDecimal =>
    cases block
    exact storeAtIndex_error
  | storeRegisters =>
    cases block
    rw [perform, storeAtIndex_error, length_firstRegisters]
  | loadRegisters =>
    cases block
    simp only [perform, bind_error_iff, Memory.load_error_iff, pure_ne_error, and_false,
      exists_false, or_false]
  | _ => cases block

theorem perform_call_error : m.perform i .call = .error fault ↔
    15 ≤ m.stack.depth.val ∧ fault = .stackOverflow m.pc.toNat m.stack.depth := by
  simp only [perform, bind_error_iff, CallStack.push_error_iff, pure_ne_error, and_false,
    exists_false, or_false]

theorem perform_ret_error : m.perform i .ret = .error fault ↔
    m.stack.depth.val = 0 ∧ fault = .stackUnderflow m.pc.toNat := by
  simp only [perform, bind_error_iff, CallStack.pop_error_iff, pure_ne_error, and_false,
    exists_false, or_false]

theorem perform_error_iff (bounded : m.stack.depth.val ≤ 15) :
    m.perform i op = .error fault ↔ Fails m i op fault := by
  cases hb : op.block? i with
  | some length => rw [perform_block_error hb, Fails.block_iff hb]
  | none =>
    cases op with
    | call =>
      have full : 15 ≤ m.stack.depth.val ↔ m.stack.depth.val = 15 :=
        ⟨Nat.le_antisymm bounded, fun h => Nat.le_of_eq h.symm⟩
      rw [perform_call_error, Fails.call_iff, full]
      exact and_congr_right fun h => by rw [h]
    | ret => rw [perform_ret_error, Fails.ret_iff]
    | draw | storeDecimal | storeRegisters | loadRegisters => cases hb
    | _ =>
      constructor
      · intro h
        cases h
      · intro h
        cases h with
        | outside block past => cases block

-- ---------------------------------------------------------------------------
-- A clock
-- ---------------------------------------------------------------------------

theorem fetch_past_iff (running : m.status = .running) :
    m.fetch = .error (.outOfRange m.pc.toNat 2) ↔ 4094 < m.pc.toNat := by
  rw [fetch_running running]
  constructor
  · intro h
    cases hw : m.memory.word m.pc.toNat with
    | error fault => exact (Memory.word_error_iff.mp hw).1
    | ok word =>
      rw [hw] at h
      cases h
  · intro past
    rw [Memory.word_error_iff.mpr ⟨past, rfl⟩]
    rfl

theorem clock_fails_iff (bounded : m.stack.depth.val ≤ 15) {fetched : Machine} {word : Word}
    (hf : m.fetch = .ok (fetched, word)) : m.clock = .error fault ↔
      Fails fetched (.ofWord word) (Instruction.ofWord word).operation fault := by
  have hs : fetched.stack = m.stack := by rw [fetch_eq hf]
  rw [clock_of_fetch hf, perform_error_iff (hs ▸ bounded)]

/-- No instruction of a program faults as if it could not be fetched. -/
theorem clock_past_iff (bounded : m.stack.depth.val ≤ 15) (running : m.status = .running) :
    m.clock = .error (.outOfRange m.pc.toNat 2) ↔ 4094 < m.pc.toNat := by
  constructor
  · intro h
    cases hf : m.fetch with
    | error fault =>
      have hc : m.clock = .error fault := bind_error_iff.mpr (.inl hf)
      cases hc.symm.trans h
      exact (fetch_past_iff running).mp hf
    | ok fetched =>
      have past := ((clock_fails_iff bounded hf).mp h).past
      omega
  · intro past
    exact bind_error_iff.mpr (.inl ((fetch_past_iff running).mpr past))

-- ---------------------------------------------------------------------------
-- Operations on a block
-- ---------------------------------------------------------------------------

theorem past_end_iff (address length : Nat) : 4096 < address + length ↔
    (∃ k < length, 4096 ≤ address + k) ∨ length = 0 ∧ 4096 < address := by
  constructor
  · intro h
    rcases Nat.eq_zero_or_pos length with rfl | hl
    · exact .inr ⟨rfl, h⟩
    · exact .inl ⟨length - 1, by omega, by omega⟩
  · rintro (⟨k, hk, h⟩ | ⟨rfl, h⟩)
    · omega
    · exact h

theorem perform_empty_draw (hn : i.n = 0) (h : m.index.toNat ≤ 4096) :
    m.perform i .draw = .ok (m.setRegister flagRegister 0) := by
  refine perform_draw_ok.mpr ⟨[], ?_, ?_⟩
  · rw [hn]
    exact Memory.load_eq_ok m.memory h
  · rw [Display.collides_nil, Display.draw_nil]
    rfl

/-- An operation on a block faults if the machine has no cell for one of its
bytes, and on no other account as long as there is a byte at all. A sprite of
no lines faults as well where the index register lies past the end, and
otherwise only clears the flag register. -/
theorem block_fault_iff {word : Int} {length : Nat}
    (block : (Instruction.ofInt word).operation.block? (.ofInt word) = some length) :
    (∀ fault, m.execute word = .error fault ↔
      ((∃ k < length, 4096 ≤ m.index.toNat + k) ∨ length = 0 ∧ 4096 < m.index.toNat) ∧
        fault = .outOfRange m.index.toNat length) ∧
    ∀ x y : Fin 16, m.execute (0xD000 + 0x100 * x + 0x10 * y : Nat) =
      if 4096 < m.index.toNat then .error (.outOfRange m.index.toNat 0)
      else .ok (m.setRegister flagRegister 0) := by
  constructor
  · intro fault
    rw [execute, perform_block_error block, past_end_iff]
  · intro x y
    have hi : Instruction.ofInt (0xD000 + 0x100 * x + 0x10 * y : Nat) = ⟨0xD, x, y, 0⟩ :=
      Instruction.ofInt_digits 0xD x y 0
    rw [execute, hi]
    split
    · next h => exact (perform_block_error rfl).mpr ⟨h, rfl⟩
    · next h => exact perform_empty_draw rfl (Nat.le_of_not_lt h)

/-- Of sixteen registers stored from 0xFF1 on the last one has no cell. -/
theorem block_fault_last_byte :
    let m : Machine := { powerOn ⟨0, 0⟩ with index := 0xFF1 }
    Operation.storeRegisters.block? (.ofInt 0xFF55) = some 16 ∧
      m.execute 0xFF55 = .error (.outOfRange 0xFF1 16) := by
  intro m
  have block : (Instruction.ofInt 0xFF55).operation.block? (.ofInt 0xFF55) = some 16 := by decide
  exact ⟨block, ((block_fault_iff (m := m) block).1 _).mpr ⟨.inl ⟨15, by decide, by decide⟩, rfl⟩⟩

def farIndex : Machine :=
  (powerOn ⟨0, 0⟩).respondAll
    [.execute (some 0x60FF), .execute (some 0xAFFF), .execute (some 0xF01E)]

/-- A sprite of no lines needs no byte, and yet it cannot be drawn there. -/
theorem empty_draw_faults :
    farIndex.Reachable ∧ farIndex.execute 0xD000 = .error (.outOfRange 0x10FE 0) := by
  have block : (Instruction.ofInt 0xD000).operation.block? (.ofInt 0xD000) = some 0 := by decide
  have far : farIndex.index.toNat = 0x10FE := by decide +kernel
  refine ⟨⟨_, _, rfl⟩, (perform_block_error block).mpr ⟨?_, ?_⟩⟩
  · rw [far]
    decide
  · rw [far]
    rfl

end Machine

end Chip8
