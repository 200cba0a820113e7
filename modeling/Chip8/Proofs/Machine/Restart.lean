import Chip8.Proofs.Machine.History
import Chip8.Proofs.Machine.WriteSet

/-!
# Running a program again

`reset_restarts`: as long as a program is not overwritten or replaced, a reset
leaves the machine that was there when the program had been loaded, whatever has
happened since; and a reset that clears memory leaves one to load it into again.
Only the random stream goes on.
-/

namespace Chip8

def Operation.Stores (op : Operation) : Prop :=
  op = .storeDecimal ∨ op = .storeRegisters

instance (op : Operation) : Decidable op.Stores :=
  inferInstanceAs (Decidable (_ ∨ _))

theorem Operation.cellsWritten_eq_zero {op : Operation} (h : ¬ op.Stores) (i : Instruction) :
    op.cellsWritten i = 0 := by
  cases op with
  | storeDecimal => exact absurd (.inl rfl) h
  | storeRegisters => exact absurd (.inr rfl) h
  | _ => rfl

namespace Call

def Loads : Call → Prop
  | .loadRom _ | .loadFile .. => True
  | _ => False

def load (rom : List Byte) : Call :=
  .loadRom (rom.map fun byte => byte.toNat)

end Call

theorem byte?_toNat (byte : Byte) : byte? byte.toNat = some byte := by
  have := byte.isLt
  rw [byte?, if_pos (by omega), BitVec.ofInt_natCast, BitVec.ofNat_toNat, BitVec.setWidth_eq]

theorem mapM_byte?_toNat (rom : List Byte) :
    (rom.map fun byte => (byte.toNat : Int)).mapM byte? = some rom := by
  induction rom with
  | nil => rfl
  | cons byte rest ih =>
    rw [List.map_cons, List.mapM_cons, byte?_toNat, ih]
    rfl

namespace Machine

variable {m after : Machine} {call : Call} {rom : List Byte}

-- ---------------------------------------------------------------------------
-- Requests that leave the program alone
-- ---------------------------------------------------------------------------

structure SameProgram (m after : Machine) : Prop where
  memory : after.memory = m.memory := by rfl
  romSize : after.romSize = m.romSize := by rfl

theorem SameProgram.trans (first : SameProgram m middle) (second : SameProgram middle after) :
    SameProgram m after where
  memory := second.memory.trans first.memory
  romSize := second.romSize.trans first.romSize

theorem perform_sameProgram {i : Instruction} {op : Operation} (quiet : ¬ op.Stores)
    (h : m.perform i op = .ok after) : SameProgram m after where
  memory := by
    refine Bank.ext_get fun a => (perform_changesOnly h).memory a ?_
    rw [Operation.cellsWritten_eq_zero quiet]
    omega
  romSize := (perform_changesOnly h).romSize

theorem tracked_sameProgram (m : Machine) : Tracked fun after past =>
    (∀ e ∈ past, ¬ e.instruction.operation.Stores) → SameProgram m after where
  fetch hm h quiet := (hm quiet).trans (by rw [fetch_eq h]; exact {})
  tick hm quiet := (hm quiet).trans {}
  execute e hm quiet :=
    (hm fun e he => quiet e (List.mem_append_left _ he)).trans
      (perform_sameProgram (quiet e (by simp)) e.performed)

/-- What the request executes stores nothing, and it does not load anything or
clear memory. A load that fails counts for nothing. -/
structure Sparing (m : Machine) (call : Call) : Prop where
  stores : ∀ e ∈ m.executions call, ¬ e.instruction.operation.Stores
  loads : call.Loads → ∃ failure, (m.respond call).2 = .error failure
  clears : call ≠ .reset true

theorem sameProgram_failed {outcome : Except Fault Machine} {failure : Failure}
    (h : (m.settle outcome).2 = .error failure) : SameProgram m (m.settle outcome).1 := by
  cases outcome with
  | error fault => exact {}
  | ok after => cases h

theorem Sparing.respond (h : Sparing m call) : SameProgram m (m.respond call).1 := by
  by_cases hx : call.Executes
  · have same : (∀ e ∈ [] ++ m.executions call, ¬ e.instruction.operation.Stores) →
        SameProgram m (m.respond call).1 :=
      (tracked_sameProgram m).respond (fun _ => {}) hx
    exact same h.stores
  cases call with
  | loadRom bytes =>
    obtain ⟨failure, failed⟩ := h.loads trivial
    rw [Machine.respond] at failed ⊢
    cases hb : bytes.mapM byte? with
    | none => exact {}
    | some rom =>
      rw [hb] at failed
      exact sameProgram_failed failed
  | loadFile name contents =>
    obtain ⟨failure, failed⟩ := h.loads trivial
    cases contents with
    | error cause => exact {}
    | ok rom => exact sameProgram_failed failed
  | reset clear =>
    cases clear with
    | false =>
      rw [Machine.respond, reset_false]
      exact {}
    | true => exact absurd rfl h.clears
  | fetch =>
    rw [Machine.respond]
    cases hf : m.fetch with
    | error fault => exact {}
    | ok result =>
      obtain ⟨fetched, word⟩ := result
      rw [fetch_eq hf]
      exact {}
  | tick => exact {}
  | setKey key pressed =>
    rw [Machine.respond]
    split
    · refine settle_keeps (P := SameProgram m) {} fun after hk => ?_
      rw [setKey_eq hk]
      exact {}
    · exact {}
  | disassemble programOnly =>
    rw [Machine.respond]
    split
    · exact {}
    · exact {}
  | execute | clock | frame => exact absurd trivial hx

theorem Throughout.sameProgram {calls : List Call} (h : m.Throughout Sparing calls) :
    SameProgram m (m.respondAll calls) :=
  h.invariant {} fun same sparing => same.trans sparing.respond

-- ---------------------------------------------------------------------------
-- A reset
-- ---------------------------------------------------------------------------

theorem loadRom_fitting (fits : rom.length ≤ romCapacity) (m : Machine) :
    m.loadRom rom = .ok { m with
      memory := m.memory.overlay programStart rom
      romSize := rom.length } :=
  if_pos fits

theorem loadRom_tooLong (long : romCapacity < rom.length) (m : Machine) :
    m.loadRom rom = .error (.romTooLarge rom.length) :=
  if_neg (Nat.not_le.mpr long)

theorem respond_load (fits : rom.length ≤ romCapacity) (m : Machine) :
    m.respond (.load rom) = ({ m with
      memory := m.memory.overlay programStart rom
      romSize := rom.length }, .ok .done) := by
  rw [Call.load, respond, mapM_byte?_toNat]
  exact settle_ok (loadRom_fitting fits m)

/-- A run that loads a program and then leaves it alone is taken back to its
beginning by a reset; after any run that is done by clearing memory and loading
the program again. -/
theorem reset_restarts (key : Random.Key) (fits : rom.length ≤ romCapacity) :
    (∀ calls, ((powerOn key).respondAll [.load rom]).Throughout Sparing calls →
      let m := (powerOn key).respondAll (.load rom :: calls)
      (powerOn m.random).loadRom rom = .ok (m.respond (.reset false)).1) ∧
    ∀ calls,
      let m := (powerOn key).respondAll calls
      (powerOn m.random).loadRom rom = .ok (m.respondAll [.reset true, .load rom]) := by
  constructor
  · intro calls sparing
    have same := sparing.sameProgram
    simp only [respondAll, respond_load fits] at same ⊢
    rw [loadRom_fitting fits, respond, reset_false, same.memory, same.romSize]
    rfl
  · intro calls
    simp only [respondAll, respond_load fits]
    exact loadRom_fitting fits _

def keySubroutine : List Byte :=
  [0x22, 0x04, 0x00, 0x00, 0xC1, 0xFF, 0xF1, 0x15, 0xF2, 0x0A, 0xF3, 0x55]

/-- The reset comes while the program waits, after a load that failed. -/
theorem reset_restarts_waiting :
    let m := (powerOn ⟨0, 7⟩).respondAll [.load keySubroutine, .loadRom [256], .frame 4]
    (m.status = .awaitingKey ∧ m.stack.depth.val = 1 ∧ m.random ≠ ⟨0, 7⟩) ∧
      (powerOn m.random).loadRom keySubroutine = .ok (m.respond (.reset false)).1 := by
  have refused (m : Machine) : Sparing m (.loadRom [256]) :=
    ⟨nofun, fun _ => ⟨.notAByte, rfl⟩, nofun⟩
  have quiet : ∀ e ∈ ((powerOn ⟨0, 7⟩).respondAll [.load keySubroutine, .loadRom [256]]).executions
      (.frame 4), ¬ e.instruction.operation.Stores := by
    decide +kernel
  refine ⟨by decide +kernel, (reset_restarts ⟨0, 7⟩ (by decide)).1 _ ?_⟩
  exact ⟨refused _, ⟨quiet, nofun, nofun⟩, trivial⟩

end Machine

end Chip8
