import Chip8.Proofs.Machine.Run
import Chip8.Proofs.Machine.WriteSet

/-!
# What an instruction depends on

Two machines that agree on all that an operation reads take the same step:
either both fault, and in the same way, or each ends with what the operation
writes, the same in both, and keeps its own of the rest (`perform_counterpart`).
No operation reads the sound timer or the size of the program, and the keys,
the delay timer and memory are read by few. `clock_local` draws the line for a
clock: sixteen cells at the index register and the word at the program counter
are all that it can see of memory.
-/

namespace Chip8

@[simp] theorem map_ok (a : α) (change : α → β) :
    (Except.ok a : Except ε α).map change = .ok (change a) := rfl

@[simp] theorem map_access (access : Except ε α) (update : α → β) (change : β → γ) :
    (update <$> access).map change = (fun a => change (update a)) <$> access := by
  cases access with
  | error fault => rfl
  | ok a => rfl

-- ---------------------------------------------------------------------------
-- Banks that agree in part
-- ---------------------------------------------------------------------------

namespace Bank

variable {size : Nat} {α : Type}

def splice (bank other : Bank size α) (start count : Nat) : Bank size α :=
  ofFn fun i => if start ≤ i.val ∧ i.val < start + count then other.get i else bank.get i

theorem get_splice (bank other : Bank size α) (start count : Nat) (i : Fin size) :
    (bank.splice other start count).get i =
      if start ≤ i.val ∧ i.val < start + count then other.get i else bank.get i :=
  get_ofFn _ i

@[simp] theorem splice_zero (bank other : Bank size α) (start : Nat) :
    bank.splice other start 0 = bank :=
  ext_get fun i => by
    rw [get_splice, if_neg (by omega)]

theorem splice_of_outside {bank other : Bank size α} {start count : Nat}
    (h : ∀ i, ¬ (start ≤ i.val ∧ i.val < start + count) → other.get i = bank.get i) :
    bank.splice other start count = other :=
  ext_get fun i => by
    rw [get_splice]
    split
    · rfl
    · next hi => exact (h i hi).symm

theorem splice_overlay (bank other : Bank size α) (start : Nat) (values : List α) :
    bank.splice (other.overlay start values) start values.length = bank.overlay start values :=
  ext_get fun i => by
    rw [get_splice]
    split
    · next hi =>
      obtain ⟨j, hj⟩ := Nat.exists_eq_add_of_le hi.1
      have hl : j < values.length := by omega
      rw [get_overlay_inside _ hj hl, get_overlay_inside _ hj hl]
    · next hi => rw [get_overlay_outside _ hi]

end Bank

namespace Memory

variable {memory other : Memory} {address : Nat}

theorem word_congr (h : ∀ a : Fin 4096, a.val = address ∨ a.val = address + 1 →
    other.get a = memory.get a) : other.word address = memory.word address := by
  unfold word
  split
  · rw [h _ (.inl rfl), h _ (.inr rfl)]
  · rfl

theorem load_congr {length : Nat} (h : ∀ a : Fin 4096,
    address ≤ a.val ∧ a.val < address + length → other.get a = memory.get a) :
    other.load address length = memory.load address length := by
  unfold load
  split
  · next hb =>
    have same (i : Fin length) :
        other.get ⟨address + i, by omega⟩ = memory.get ⟨address + i, by omega⟩ :=
      h _ ⟨Nat.le_add_right .., Nat.add_lt_add_left i.isLt address⟩
    simp only [same]
  · rfl

end Memory

-- ---------------------------------------------------------------------------
-- Every operation
-- ---------------------------------------------------------------------------

namespace Operation

def ReadsKeys (op : Operation) : Prop :=
  op = .skip .keyDown ∨ op = .skip .keyUp ∨ op = .awaitKey

def cellsRead (i : Instruction) : Operation → Nat
  | .draw => i.n
  | .loadRegisters => i.x + 1
  | _ => 0

theorem cellsRead_le (i : Instruction) (op : Operation) : op.cellsRead i ≤ 16 := by
  cases op with
  | draw => exact Nat.le_of_lt i.n.isLt
  | loadRegisters => exact i.x.isLt
  | _ => exact Nat.zero_le 16

end Operation

namespace Machine

structure SameProgress (m n : Machine) : Prop where
  registers : n.registers = m.registers := by rfl
  index : n.index = m.index := by rfl
  pc : n.pc = m.pc := by rfl
  stack : n.stack = m.stack := by rfl
  random : n.random = m.random := by rfl
  display : n.display = m.display := by rfl
  status : n.status = m.status := by rfl
  held : n.held = m.held := by rfl

structure ReadsAlike (i : Instruction) (op : Operation) (m n : Machine) : Prop
    extends SameProgress m n where
  keypad : op.ReadsKeys → n.keypad = m.keypad
  delay : op = .readDelay → n.delay = m.delay
  memory : ∀ a, m.index.toNat ≤ a.val ∧ a.val < m.index.toNat + op.cellsRead i →
    n.memory.get a = m.memory.get a

/-- What becomes of `n` where another machine becomes `after`: what the operation
writes is taken from there. -/
def counterpart (n : Machine) (i : Instruction) (op : Operation) (after : Machine) : Machine :=
  { after with
    memory := n.memory.splice after.memory n.index.toNat (op.cellsWritten i)
    keypad := n.keypad
    delay := if op = .setDelay then after.delay else n.delay
    sound := if op = .setSound then after.sound else n.sound
    romSize := n.romSize }

variable {m n after : Machine} {i : Instruction} {op : Operation}

theorem SameProgress.eq (h : SameProgress m n) : n = { m with
    memory := n.memory
    keypad := n.keypad
    delay := n.delay
    sound := n.sound
    romSize := n.romSize } := by
  obtain ⟨registers, index, pc, stack, random, display, status, held⟩ := h
  rw [← registers, ← index, ← pc, ← stack, ← random, ← display, ← status, ← held]

theorem sameProgress_counterpart : SameProgress after (n.counterpart i op after) := by
  -- folded up, the two sides would be compared cell by cell
  unfold counterpart
  exact {}

theorem storeAtIndex_counterpart (op : Operation) (h : SameProgress m n) {bytes : List Byte}
    (cells : op.cellsWritten i = bytes.length) (delay : op ≠ .setDelay) (sound : op ≠ .setSound) :
    n.storeAtIndex bytes = (m.storeAtIndex bytes).map (n.counterpart i op) := by
  rw [h.eq, storeAtIndex, storeAtIndex]
  rcases Nat.lt_or_ge 4096 (m.index.toNat + bytes.length) with past | fits
  · rw [Memory.store_eq_error _ past, Memory.store_eq_error _ past]
    rfl
  · rw [Memory.store_eq_ok _ fits, Memory.store_eq_ok _ fits]
    refine congrArg Except.ok ?_
    simp [counterpart, cells, Bank.splice_overlay, delay, sound]

theorem perform_counterpart (h : ReadsAlike i op m n) :
    n.perform i op = (m.perform i op).map (n.counterpart i op) := by
  -- from here on the program's state is the same term on both sides
  rw [h.eq]
  cases op with
  | noOp | clearScreen | jump | setByte | addByte | setIndex | jumpOffset | random | addIndex
  | glyph | setDelay | setSound | ret | call =>
    simp [perform, counterpart, Operation.cellsWritten, setRegister]
  | readDelay =>
    simp [perform, counterpart, Operation.cellsWritten, setRegister, h.delay rfl]
  | skip condition =>
    have same : n.holds i condition = m.holds i condition := by
      cases condition with
      | keyDown => simp [holds, h.registers, h.keypad (.inl rfl)]
      | keyUp => simp [holds, h.registers, h.keypad (.inr (.inl rfl))]
      | _ => simp [holds, h.registers]
    rw [h.eq] at same
    simp [perform, skipIf_eq, same, counterpart, Operation.cellsWritten]
  | arithmetic kind =>
    cases hf : kind.flag (m.registers.get i.x) (m.registers.get i.y) with
    | none | some =>
      simp [perform, compute, hf, counterpart, Operation.cellsWritten, setRegister]
  | awaitKey =>
    cases hk : m.keypad.lowest? with
    | none | some =>
      simp [perform, takeKey, h.keypad (.inr (.inr rfl)), hk, counterpart, Operation.cellsWritten,
        setRegister]
  | draw =>
    have same : n.memory.load m.index.toNat i.n = m.memory.load m.index.toNat i.n :=
      Memory.load_congr h.memory
    simp [perform, drawSprite, same, counterpart, Operation.cellsWritten, setRegister]
  | loadRegisters =>
    have same : n.memory.load m.index.toNat (i.x + 1) = m.memory.load m.index.toNat (i.x + 1) :=
      Memory.load_congr h.memory
    simp [perform, same, counterpart, Operation.cellsWritten]
  | storeDecimal => exact storeAtIndex_counterpart .storeDecimal {} rfl (by decide) (by decide)
  | storeRegisters =>
    have length := (length_firstRegisters m i.x).symm
    exact storeAtIndex_counterpart .storeRegisters {} length (by decide) (by decide)

-- ---------------------------------------------------------------------------
-- A clock
-- ---------------------------------------------------------------------------

variable {fetched : Machine} {word : Word}

theorem SameProgress.fetch (h : SameProgress m n)
    (same : n.memory.word m.pc.toNat = m.memory.word m.pc.toNat) :
    n.fetch = m.fetch.map fun (fetched, word) =>
      ({ n with pc := fetched.pc, held := fetched.held }, word) := by
  rcases status_cases m with running | waiting
  · rw [fetch_running running, fetch_running (h.status.trans running), h.pc, same]
    cases m.memory.word m.pc.toNat with
    | error fault => rfl
    | ok word => rfl
  · rw [fetch_waiting waiting, fetch_waiting (h.status.trans waiting), map_ok, h.held]
    simp only [← h.pc, ← h.held]

theorem clock_counterpart (hf : m.fetch = .ok (fetched, word))
    (same : n.memory.word m.pc.toNat = m.memory.word m.pc.toNat)
    (h : ReadsAlike (.ofWord word) (Instruction.ofWord word).operation m n) :
    n.clock = m.clock.map (n.counterpart (.ofWord word) (Instruction.ofWord word).operation) := by
  have hn : n.fetch = .ok ({ n with pc := fetched.pc, held := fetched.held }, word) := by
    rw [h.fetch same, hf, map_ok]
  rw [clock_of_fetch hf, clock_of_fetch hn]
  refine perform_counterpart ?_
  rw [fetch_eq hf]
  exact { h with pc := rfl, held := rfl }

/-- The cells that a clock can see: the word at the program counter and sixteen
bytes at the index register. -/
def InView (m : Machine) (a : Fin 4096) : Prop :=
  a.val = m.pc.toNat ∨ a.val = m.pc.toNat + 1 ∨
    m.index.toNat ≤ a.val ∧ a.val < m.index.toNat + 16

/-- Two machines that may differ in memory, the sound timer and the size of the
program. -/
structure Alike (m n : Machine) : Prop extends SameProgress m n where
  keypad : n.keypad = m.keypad := by rfl
  delay : n.delay = m.delay := by rfl

structure Lockstep (m n after other : Machine) : Prop extends Alike after other where
  romSize : after.romSize = m.romSize ∧ other.romSize = n.romSize
  sound_set : m.nextOperation = .ok .setSound → other.sound = after.sound
  sound_kept : m.nextOperation ≠ .ok .setSound → after.sound = m.sound ∧ other.sound = n.sound
  memory : ∀ a, other.memory.get a ≠ after.memory.get a → n.memory.get a ≠ m.memory.get a

theorem Alike.readsAlike (alike : Alike m n)
    (view : ∀ a, m.InView a → n.memory.get a = m.memory.get a) : ReadsAlike i op m n where
  toSameProgress := alike.toSameProgress
  keypad _ := alike.keypad
  delay _ := alike.delay
  memory a ha := by
    have few := op.cellsRead_le i
    exact view a (.inr (.inr ⟨ha.1, by omega⟩))

theorem Alike.lockstep (alike : Alike m n) (hf : m.fetch = .ok (fetched, word))
    (hx : fetched.perform (.ofWord word) (Instruction.ofWord word).operation = .ok after) :
    Lockstep m n after
      (n.counterpart (.ofWord word) (Instruction.ofWord word).operation after) := by
  have only := perform_changesOnly hx
  have next := nextOperation_of_fetch hf
  rw [fetch_eq hf] at only
  generalize (Instruction.ofWord word).operation = op at only next
  exact {
    toSameProgress := sameProgress_counterpart
    keypad := alike.keypad.trans only.keypad.symm
    delay := by
      by_cases sets : op = .setDelay
      · exact if_pos sets
      · exact (if_neg sets).trans (alike.delay.trans (only.delay sets).symm)
    romSize := ⟨only.romSize, rfl⟩
    sound_set := fun sets => if_pos (Except.ok.inj (next.symm.trans sets))
    sound_kept := fun keeps => by
      have other : op ≠ .setSound := fun sets => keeps (sets ▸ next)
      exact ⟨only.sound other, if_neg other⟩
    memory := fun a differ => by
      have unwritten : ¬ (m.index.toNat ≤ a.val ∧
          a.val < m.index.toNat + op.cellsWritten (.ofWord word)) := fun written =>
        differ (by rw [counterpart, alike.index, Bank.get_splice, if_pos written])
      rwa [counterpart, alike.index, Bank.get_splice, if_neg unwritten,
        only.memory a unwritten] at differ }

/-- Two machines that look the same to a clock go on in lockstep: they fault alike,
or neither does. -/
theorem clock_local (alike : Alike m n)
    (view : ∀ a, m.InView a → n.memory.get a = m.memory.get a) :
    (∃ fault, m.clock = .error fault ∧ n.clock = .error fault) ∨
      ∃ after other, m.clock = .ok after ∧ n.clock = .ok other ∧ Lockstep m n after other := by
  have same : n.memory.word m.pc.toNat = m.memory.word m.pc.toNat :=
    Memory.word_congr fun a ha => view a (ha.elim .inl fun h => .inr (.inl h))
  cases hf : m.fetch with
  | error fault =>
    refine .inl ⟨fault, clock_of_fetch_error hf, clock_of_fetch_error ?_⟩
    rw [alike.fetch same, hf]
    rfl
  | ok fetch =>
    obtain ⟨fetched, word⟩ := fetch
    have both := clock_counterpart hf same (alike.readsAlike view)
    cases hm : m.clock with
    | error fault => exact .inl ⟨fault, rfl, both.trans (by rw [hm]; rfl)⟩
    | ok after =>
      rw [hm, map_ok] at both
      exact .inr ⟨after, _, rfl, both, alike.lockstep hf (clock_of_fetch hf ▸ hm)⟩

def silencer : Machine :=
  (powerOn ⟨0, 0⟩).respondAll [.loadRom [0xF1, 0x18]]

theorem nextOperation_silencer : silencer.nextOperation = .ok .setSound := by
  have here : silencer.status = .running ∧
      silencer.memory.word silencer.pc.toNat = .ok 0xF118 := by
    decide +kernel
  exact nextOperation_of_fetch (fetch_word here.1 here.2)

/-- The sound timers differ and then no longer do; the cell 0x400 is out of view. -/
theorem clock_local_silencer :
    let m := silencer
    let n := { m with memory := m.memory.set 0x400 7, sound := 9, romSize := 3 }
    Alike m n ∧ (∀ a, m.InView a → n.memory.get a = m.memory.get a) ∧
      ∃ after other, m.clock = .ok after ∧ n.clock = .ok other ∧ other.sound = after.sound ∧
        Lockstep m n after other := by
  intro m n
  have alike : Alike m n := { toSameProgress := {} }
  have here : m.pc.toNat = 0x200 ∧ m.index.toNat = 0 := by decide +kernel
  have view (a : Fin 4096) (ha : m.InView a) : n.memory.get a = m.memory.get a := by
    refine Bank.get_set_of_ne _ ?_ _
    rintro rfl
    rw [InView, here.1, here.2] at ha
    revert ha
    decide
  have runs : m.clock.isOk = true := by decide +kernel
  rcases clock_local alike view with ⟨fault, hm, -⟩ | ⟨after, other, hm, hn, lockstep⟩
  · rw [hm] at runs
    cases runs
  · exact ⟨alike, view, after, other, hm, hn, lockstep.sound_set nextOperation_silencer,
      lockstep⟩

end Machine

end Chip8
