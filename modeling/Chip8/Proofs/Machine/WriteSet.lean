import Chip8.Proofs.Machine.Perform

/-!
# What an instruction can change

Every operation has a write set: the fields, registers and memory cells that
it can change at all. `execute_changesOnly` says that a word that is executed
without a fault changes nothing outside the write set of its operation. The
keys, the size of the program and the held word are in no write set.
-/

namespace Chip8

namespace Operation

/-- The registers that are written; the flag register counts where a flag is. -/
def registersWritten (i : Instruction) : Operation → List (Fin 16)
  | .setByte | .addByte | .random | .readDelay | .awaitKey => [i.x]
  | .arithmetic .copy | .arithmetic .or | .arithmetic .and | .arithmetic .xor => [i.x]
  | .arithmetic _ => [i.x, flagRegister]
  | .draw => [flagRegister]
  | .loadRegisters => (List.finRange 16).filter (· ≤ i.x)
  | _ => []

def cellsWritten (i : Instruction) : Operation → Nat
  | .storeDecimal => 3
  | .storeRegisters => i.x + 1
  | _ => 0

end Operation

namespace Machine

/-- Everything outside the write set of the operation is as before. The
defaults close the fields that an operation does not touch. -/
structure ChangesOnly (i : Instruction) (op : Operation) (m after : Machine) : Prop where
  keypad : after.keypad = m.keypad := by rfl
  romSize : after.romSize = m.romSize := by rfl
  held : after.held = m.held := by rfl
  display : op ≠ .clearScreen → op ≠ .draw → after.display = m.display := by intros; rfl
  memory : ∀ a, ¬ (m.index.toNat ≤ a.val ∧ a.val < m.index.toNat + op.cellsWritten i) →
    after.memory.get a = m.memory.get a := by intros; rfl
  stack : op ≠ .call → op ≠ .ret → after.stack = m.stack := by intros; rfl
  delay : op ≠ .setDelay → after.delay = m.delay := by intros; rfl
  sound : op ≠ .setSound → after.sound = m.sound := by intros; rfl
  random : op ≠ .random → after.random = m.random := by intros; rfl
  status : op ≠ .awaitKey → after.status = m.status := by intros; rfl
  index : op ≠ .setIndex → op ≠ .addIndex → op ≠ .glyph → after.index = m.index := by intros; rfl
  pc : op ≠ .jump → op ≠ .call → op ≠ .ret → op ≠ .jumpOffset →
    after.pc = m.pc ∨ (∃ condition, op = .skip condition) ∧ after.pc = m.pc + 2 := by
      intros; exact .inl rfl
  registers : ∀ r, r ∉ op.registersWritten i →
    after.registers.get r = m.registers.get r := by intros; rfl
  noOp : op = .noOp → after = m := by intro h; cases h

variable {m after : Machine} {i : Instruction} {op : Operation}

-- ---------------------------------------------------------------------------
-- Registers
-- ---------------------------------------------------------------------------

theorem get_set_outside {registers : Registers} {value : Byte} {x r : Fin 16}
    (h : r ∉ x :: rest) : (registers.set x value).get r = registers.get r :=
  Bank.get_set_of_ne _ (Ne.symm (List.ne_of_not_mem_cons h)) _

theorem get_compute_outside {kind : Arithmetic} {y r : Fin 16}
    (h : r ∉ (Operation.arithmetic kind).registersWritten i) :
    (m.compute kind i.x y).registers.get r = m.registers.get r := by
  have hx : i.x ≠ r := by
    rintro rfl
    cases kind <;> simp [Operation.registersWritten] at h
  have hf : flagRegister = r → kind.flag (m.registers.get i.x) (m.registers.get y) = none := by
    rintro rfl
    cases kind <;> first | rfl | simp [Operation.registersWritten] at h
  rw [get_compute, if_neg hx]
  split
  · next he => rw [hf he]; rfl
  · rfl

theorem get_takeKey_outside {x r : Fin 16} (h : r ∉ x :: rest) :
    (m.takeKey x).registers.get r = m.registers.get r := by
  unfold takeKey
  split
  · rfl
  · exact get_set_outside h

theorem get_loaded_outside {bytes : List Byte} {r : Fin 16}
    (hb : m.memory.load address (i.x + 1) = .ok bytes)
    (hr : r ∉ Operation.loadRegisters.registersWritten i) :
    (m.registers.overlay 0 bytes).get r = m.registers.get r := by
  obtain ⟨_, rfl⟩ := Memory.load_ok_iff.mp hb
  have hx : i.x < r := by simpa [Operation.registersWritten] using hr
  exact Bank.get_overlay_outside _ (by simp only [List.length_ofFn]; omega)

-- ---------------------------------------------------------------------------
-- Every operation
-- ---------------------------------------------------------------------------

theorem perform_changesOnly (h : m.perform i op = .ok after) : ChangesOnly i op m after := by
  cases op with
  | noOp => cases h; exact { noOp := fun _ => rfl }
  | clearScreen => cases h; exact { display := fun hc => absurd rfl hc }
  | ret =>
    obtain ⟨_, _, _, rfl⟩ := perform_ret_ok.mp h
    exact { stack := fun _ hr => absurd rfl hr, pc := fun _ _ hr => absurd rfl hr }
  | jump => cases h; exact { pc := fun hj => absurd rfl hj }
  | call =>
    obtain ⟨_, _, rfl⟩ := perform_call_ok.mp h
    exact { stack := fun hc => absurd rfl hc, pc := fun _ hc => absurd rfl hc }
  | skip condition =>
    cases h
    rw [skipIf_eq]
    refine { pc := fun _ _ _ _ => ?_ }
    cases m.holds i condition with
    | false => exact .inl rfl
    | true => exact .inr ⟨⟨condition, rfl⟩, rfl⟩
  | setByte | addByte | readDelay =>
    cases h
    exact { registers := fun r hr => get_set_outside hr }
  | arithmetic kind =>
    cases h
    rw [compute_eq]
    exact { registers := fun r hr => get_compute_outside hr }
  | setIndex => cases h; exact { index := fun hs => absurd rfl hs }
  | jumpOffset => cases h; exact { pc := fun _ _ _ hj => absurd rfl hj }
  | random =>
    cases h
    exact {
      random := fun hr => absurd rfl hr
      registers := fun r hr => get_set_outside hr }
  | draw =>
    obtain ⟨_, _, rfl⟩ := perform_draw_ok.mp h
    exact {
      display := fun _ hd => absurd rfl hd
      registers := fun r hr => get_set_outside hr }
  | awaitKey =>
    cases h
    rw [takeKey_eq]
    exact {
      status := fun hs => absurd rfl hs
      registers := fun r hr => get_takeKey_outside hr }
  | setDelay => cases h; exact { delay := fun hd => absurd rfl hd }
  | setSound => cases h; exact { sound := fun hs => absurd rfl hs }
  | addIndex => cases h; exact { index := fun _ ha => absurd rfl ha }
  | glyph => cases h; exact { index := fun _ _ hg => absurd rfl hg }
  | storeDecimal | storeRegisters =>
    obtain ⟨_, rfl⟩ := storeAtIndex_ok.mp h
    refine { memory := fun a ha => Bank.get_overlay_outside _ ?_ }
    simpa [Operation.cellsWritten] using ha
  | loadRegisters =>
    obtain ⟨_, hb, rfl⟩ := perform_loadRegisters_ok.mp h
    exact { registers := fun r hr => get_loaded_outside hb hr }

theorem awaitKey_of_begins (h : m.perform i op = .ok after) (running : m.status = .running)
    (waits : after.status = .awaitingKey) : op = .awaitKey := by
  refine Decidable.byContradiction fun other => ?_
  have same := (perform_changesOnly h).status other
  rw [running, waits] at same
  cases same

/-- The write sets of the whole instruction set, for a word given as any integer. -/
theorem execute_changesOnly {word : Int} (h : m.execute word = .ok after) :
    ChangesOnly (.ofInt word) (Instruction.ofInt word).operation m after :=
  perform_changesOnly h

theorem execute_changesOnly_storing : ∃ after,
    (powerOn ⟨0, 0⟩).execute 0x1F255 = .ok after ∧
      ChangesOnly (.ofInt 0x1F255) .storeRegisters (powerOn ⟨0, 0⟩) after := by
  exact ⟨_, rfl, execute_changesOnly rfl⟩

end Machine

end Chip8
