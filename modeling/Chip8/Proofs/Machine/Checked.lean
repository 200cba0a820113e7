import Chip8.Proofs.Machine.Fault
import Chip8.Proofs.Machine.Subroutine

/-!
# Every index is in range

The rules once more, on banks that are read and written at any number. They
guard what the machine guards and nothing else, and a number past the last cell
stops a rule instead of being cut to size. `checkedExecute_eq` and
`checkedClock_eq`: no rule is ever stopped so, and what a rule computes is what
the machine computes. `reachable_outcome` adds which faults there are.
-/

namespace Chip8

inductive Stop where
  | fault (cause : Fault)
  | outside (index size : Nat)

-- ---------------------------------------------------------------------------
-- Banks
-- ---------------------------------------------------------------------------

namespace Bank

variable {size : Nat} {α : Type}

def read (bank : Bank size α) (index : Nat) : Except Stop α :=
  if h : index < size then pure (bank.get ⟨index, h⟩) else throw (.outside index size)

def write (bank : Bank size α) (index : Nat) (value : α) : Except Stop (Bank size α) :=
  if h : index < size then pure (bank.set ⟨index, h⟩ value) else throw (.outside index size)

def readBlock (bank : Bank size α) (start : Nat) : Nat → Except Stop (List α)
  | 0 => pure []
  | count + 1 => do
    let value ← bank.read start
    return value :: (← bank.readBlock (start + 1) count)

def writeBlock (bank : Bank size α) (start : Nat) : List α → Except Stop (Bank size α)
  | [] => pure bank
  | value :: rest => do (← bank.write start value).writeBlock (start + 1) rest

def ofFnM (f : Fin size → Except Stop α) : Except Stop (Bank size α) := do
  return ⟨← Vector.ofFnM f⟩

theorem read_of_lt (bank : Bank size α) {index : Nat} (h : index < size) :
    bank.read index = pure (bank.get ⟨index, h⟩) :=
  dif_pos h

theorem write_of_lt (bank : Bank size α) {index : Nat} (h : index < size) (value : α) :
    bank.write index value = pure (bank.set ⟨index, h⟩ value) :=
  dif_pos h

@[simp] theorem read_val (bank : Bank size α) (i : Fin size) :
    bank.read i = pure (bank.get i) :=
  bank.read_of_lt i.isLt

@[simp] theorem write_val (bank : Bank size α) (i : Fin size) (value : α) :
    bank.write i value = pure (bank.set i value) :=
  bank.write_of_lt i.isLt value

theorem readBlock_eq (bank : Bank size α) {start count : Nat} (h : start + count ≤ size) :
    bank.readBlock start count =
      pure (List.ofFn fun i : Fin count => bank.get ⟨start + i, by omega⟩) := by
  induction count generalizing start with
  | zero => rfl
  | succ count ih =>
    rw [readBlock, bank.read_of_lt (by omega), ih (by omega), List.ofFn_succ]
    simp only [pure_bind, Fin.val_zero, Nat.add_zero, Fin.val_succ, Nat.add_assoc, Nat.add_comm 1]

theorem writeBlock_eq (bank : Bank size α) {start : Nat} {values : List α}
    (h : start + values.length ≤ size) :
    bank.writeBlock start values = pure (bank.overlay start values) := by
  induction values generalizing bank start with
  | nil => rfl
  | cons value rest ih =>
    rw [List.length_cons] at h
    rw [writeBlock, bank.write_of_lt (by omega), pure_bind, ih _ (by omega), overlay,
      dif_pos (by omega)]

theorem ofFnM_pure (f : Fin size → α) : ofFnM (fun i => pure (f i)) = pure (ofFn f) := by
  rw [ofFnM, Vector.ofFnM_pure, pure_bind]
  rfl

end Bank

-- ---------------------------------------------------------------------------
-- The rules
-- ---------------------------------------------------------------------------

namespace CallStack

def checkedPush (stack : CallStack) (address : Word) (pc : Int) : Except Stop CallStack :=
  if h : 15 ≤ stack.depth.val then throw (.fault (.stackOverflow pc stack.depth))
  else do
    let slots ← stack.slots.write stack.depth (address &&& 0xFFF)
    return ⟨slots, ⟨stack.depth + 1, by omega⟩⟩

def checkedPop (stack : CallStack) (pc : Int) : Except Stop (Word × CallStack) :=
  if stack.depth.val = 0 then throw (.fault (.stackUnderflow pc))
  else do
    let address ← stack.slots.read (stack.depth - 1)
    let slots ← stack.slots.write (stack.depth - 1) 0
    return (address, ⟨slots, ⟨stack.depth - 1, by omega⟩⟩)

end CallStack

def Display.overlaps (display mask : Display) : Bool :=
  positions.any fun (x, y) => display.pixel x y && mask.pixel x y

def Display.toggled (display mask : Display) : Display :=
  ofPixels fun x y => display.pixel x y ^^ mask.pixel x y

/-- The pixels of a sprite of `height` lines, each looked up in sixteen lines of
which the sprite takes the first. -/
def Sprite.checkedMask (rows : Bank 16 Byte) (left : Fin 64) (top : Fin 32) (height : Nat) :
    Except Stop Display := do
  let lines ← Bank.ofFnM fun y : Fin 32 => Bank.ofFnM fun x : Fin 64 => do
    let row := (y - top).val
    let column := (x - left).val
    let byte ← rows.read (min row 15)
    return byte.getLsbD (7 - min column 7) && column < 8 && row < height
  return ⟨lines⟩

namespace Machine

def guarded (m : Machine) (length : Nat) : Except Stop Nat :=
  if 4096 < m.index.toNat + length then throw (.fault (.outOfRange m.index.toNat length))
  else pure m.index.toNat

def checkedWrite (m : Machine) (x : Nat) (value : Byte) : Except Stop Machine := do
  return { m with registers := ← m.registers.write x value }

def checkedHolds (m : Machine) (i : Instruction) : Condition → Except Stop Bool
  | .byteEqual => do return decide ((← m.registers.read i.x) = i.byte)
  | .byteDiffers => do return decide ((← m.registers.read i.x) ≠ i.byte)
  | .registersEqual => do return decide ((← m.registers.read i.x) = (← m.registers.read i.y))
  | .registersDiffer => do return decide ((← m.registers.read i.x) ≠ (← m.registers.read i.y))
  | .keyDown => do m.keypad.read ((← m.registers.read i.x).toNat % 16)
  | .keyUp => do return !(← m.keypad.read ((← m.registers.read i.x).toNat % 16))

def checkedCompute (m : Machine) (kind : Arithmetic) (x y : Nat) : Except Stop Machine := do
  let a ← m.registers.read x
  let b ← m.registers.read y
  let flagged ← match kind.flag a b with
    | some flag => m.checkedWrite 15 (flagByte flag)
    | none => pure m
  flagged.checkedWrite x (kind.result a b)

def checkedTakeKey (m : Machine) (x : Nat) : Except Stop Machine :=
  match m.keypad.lowest? with
  | none => pure { m with status := .awaitingKey }
  | some key => do
    return { (← m.checkedWrite x (BitVec.ofNat 8 key)) with status := .running }

def checkedDraw (m : Machine) (i : Instruction) : Except Stop Machine := do
  let start ← m.guarded i.n
  let left := Fin.ofNat 64 (← m.registers.read i.x).toNat
  let top := Fin.ofNat 32 (← m.registers.read i.y).toNat
  let rows ← (Bank.fill 0 : Bank 16 Byte).writeBlock 0 (← m.memory.readBlock start i.n)
  let mask ← Sprite.checkedMask rows left top i.n
  let flagged ← m.checkedWrite 15 (flagByte (m.display.overlaps mask))
  return { flagged with display := m.display.toggled mask }

def checkedStore (m : Machine) (bytes : List Byte) : Except Stop Machine := do
  let start ← m.guarded bytes.length
  return { m with memory := ← m.memory.writeBlock start bytes }

def checkedPerform (m : Machine) (i : Instruction) : Operation → Except Stop Machine
  | .noOp => pure m
  | .clearScreen => pure { m with display := .blank }
  | .ret => do
    let (address, stack) ← m.stack.checkedPop m.pc.toNat
    return { m with stack := stack, pc := address }
  | .jump => pure { m with pc := i.address }
  | .call => do
    let stack ← m.stack.checkedPush m.pc m.pc.toNat
    return { m with stack := stack, pc := i.address }
  | .skip condition => do return m.skipIf (← m.checkedHolds i condition)
  | .setByte => m.checkedWrite i.x i.byte
  | .addByte => do m.checkedWrite i.x ((← m.registers.read i.x) + i.byte)
  | .arithmetic kind => m.checkedCompute kind i.x i.y
  | .setIndex => pure { m with index := i.address }
  | .jumpOffset => do return { m with pc := i.address + (← m.registers.read 0).setWidth 16 }
  | .random => do
    let keys := m.random.split
    return { (← m.checkedWrite i.x (keys.2.byte &&& i.byte)) with random := keys.1 }
  | .draw => m.checkedDraw i
  | .readDelay => m.checkedWrite i.x m.delay
  | .awaitKey => m.checkedTakeKey i.x
  | .setDelay => do return { m with delay := ← m.registers.read i.x }
  | .setSound => do return { m with sound := ← m.registers.read i.x }
  | .addIndex => do return { m with index := m.index + (← m.registers.read i.x).setWidth 16 }
  | .glyph => do
    let digit := (← m.registers.read i.x).toNat % 16
    return { m with index := BitVec.ofNat 16 (Font.start + Font.glyphSize * digit) }
  | .storeDecimal => do m.checkedStore (decimalDigits (← m.registers.read i.x))
  | .storeRegisters => do m.checkedStore (← m.registers.readBlock 0 (i.x + 1))
  | .loadRegisters => do
    let start ← m.guarded (i.x + 1)
    let bytes ← m.memory.readBlock start (i.x + 1)
    return { m with registers := ← m.registers.writeBlock 0 bytes }

def checkedExecute (m : Machine) (word : Int) : Except Stop Machine :=
  let i := Instruction.ofInt word
  m.checkedPerform i i.operation

def checkedFetch (m : Machine) : Except Stop (Machine × Word) :=
  match m.status with
  | .awaitingKey => pure (m, m.held)
  | .running =>
    if 4096 ≤ m.pc.toNat + 1 then throw (.fault (.outOfRange m.pc.toNat 2))
    else do
      let high ← m.memory.read m.pc.toNat
      let low ← m.memory.read (m.pc.toNat + 1)
      let word : Word := high ++ low
      return ({ m with pc := m.pc + 2, held := word }, word)

def checkedClock (m : Machine) : Except Stop Machine := do
  let (fetched, word) ← m.checkedFetch
  fetched.checkedExecute word.toNat

end Machine

-- ---------------------------------------------------------------------------
-- No rule is stopped
-- ---------------------------------------------------------------------------

theorem mapError_bind {x : Except ε α} {f : α → Except ε β} {g : ε → δ} :
    (x >>= f).mapError g = x.mapError g >>= fun a => (f a).mapError g := by
  cases x with
  | error => rfl
  | ok => rfl

namespace CallStack

theorem checkedPush_eq (stack : CallStack) (address : Word) (pc : Int) :
    stack.checkedPush address pc = (stack.push address pc).mapError .fault := by
  unfold checkedPush push maxDepth
  split
  · next h =>
    rw [dif_neg (Nat.not_lt.mpr h)]
    rfl
  · next h =>
    rw [dif_pos (Nat.lt_of_not_le h), Bank.write_of_lt _ (by omega)]
    rfl

theorem checkedPop_eq (stack : CallStack) (pc : Int) :
    stack.checkedPop pc = (stack.pop pc).mapError .fault := by
  unfold checkedPop pop
  split
  · next h =>
    rw [dif_neg (by omega)]
    rfl
  · next h =>
    rw [dif_pos (by omega), Bank.read_of_lt _ (by omega), Bank.write_of_lt _ (by omega)]
    rfl

end CallStack

namespace Sprite

/-- Neither the cut of the row nor that of the column is seen in a pixel of the
sprite. -/
theorem bit_padded {sprite : Sprite} (h : sprite.length ≤ 16) (row column : Nat) :
    ((((Bank.fill 0 : Bank 16 Byte).overlay 0 sprite).get ⟨min row 15, by omega⟩).getLsbD
      (7 - min column 7) && column < 8 && row < sprite.length) = sprite.bit row column := by
  by_cases hr : row < sprite.length
  · have hm : min row 15 = row := Nat.min_eq_left (by omega)
    have hget : ((Bank.fill 0 : Bank 16 Byte).overlay 0 sprite).get ⟨min row 15, by omega⟩ =
        sprite[row] := by
      simp [Bank.get_overlay, hm, hr]
    have hbit : sprite.bit row column = sprite[row].getMsbD column := by
      rw [bit, List.getElem?_eq_getElem hr]
    rw [hget, hbit, decide_eq_true hr, Bool.and_true, BitVec.getMsbD_eq_getLsbD]
    by_cases hc : column < 8
    · rw [Nat.min_eq_left (by omega), Bool.and_comm]
    · simp [hc]
  · rw [decide_eq_false hr, Bool.and_false, bit, List.getElem?_eq_none (Nat.le_of_not_lt hr)]

theorem checkedMask_eq {sprite : Sprite} {height : Nat} (hl : sprite.length = height)
    (h : height ≤ 16) (left : Fin 64) (top : Fin 32) :
    checkedMask ((Bank.fill 0).overlay 0 sprite) left top height =
      pure (Display.ofPixels (sprite.covers left top)) := by
  subst hl
  have hpixel (x : Fin 64) (y : Fin 32) : (do
      let byte ← ((Bank.fill 0 : Bank 16 Byte).overlay 0 sprite).read (min (y - top).val 15)
      return byte.getLsbD (7 - min (x - left).val 7) && (x - left).val < 8 &&
        (y - top).val < sprite.length : Except Stop Bool) = pure (sprite.covers left top x y) := by
    rw [Bank.read_of_lt _ (by omega), pure_bind, bit_padded h]
    rfl
  simp only [checkedMask, hpixel, Bank.ofFnM_pure, pure_bind]
  rfl

end Sprite

theorem Display.overlaps_covers (display : Display) (sprite : Sprite) (left : Fin 64)
    (top : Fin 32) :
    display.overlaps (ofPixels (sprite.covers left top)) = display.collides sprite left top := by
  simp only [overlaps, collides, pixel_ofPixels]

theorem Display.toggled_covers (display : Display) (sprite : Sprite) (left : Fin 64)
    (top : Fin 32) :
    display.toggled (ofPixels (sprite.covers left top)) = display.draw sprite left top := by
  simp only [toggled, draw, pixel_ofPixels]

namespace Machine

variable (m : Machine) (i : Instruction)

theorem checkedWrite_val (x : Fin 16) (value : Byte) :
    m.checkedWrite x value = pure (m.setRegister x value) := by
  rw [checkedWrite, Bank.write_val, pure_bind]
  rfl

theorem checkedWrite_flag (value : Byte) :
    m.checkedWrite 15 value = pure (m.setRegister flagRegister value) :=
  m.checkedWrite_val flagRegister value

theorem checkedHolds_eq (condition : Condition) :
    m.checkedHolds i condition = pure (m.holds i condition) := by
  have hkey (value : Byte) : m.keypad.read (value.toNat % 16) = pure (m.keypad.get (keyOf value)) :=
    m.keypad.read_of_lt (Nat.mod_lt _ (by decide))
  cases condition <;> simp only [checkedHolds, Bank.read_val, pure_bind, hkey] <;> rfl

theorem checkedCompute_eq (kind : Arithmetic) (x y : Fin 16) :
    m.checkedCompute kind x y = pure (m.compute kind x y) := by
  rw [checkedCompute, Bank.read_val, pure_bind, Bank.read_val, pure_bind, compute]
  cases kind.flag (m.registers.get x) (m.registers.get y) with
  | none => simp only [pure_bind, checkedWrite_val]
  | some flag => simp only [checkedWrite_flag, pure_bind, checkedWrite_val]

theorem checkedTakeKey_eq (x : Fin 16) : m.checkedTakeKey x = pure (m.takeKey x) := by
  unfold checkedTakeKey takeKey
  cases m.keypad.lowest? with
  | none => rfl
  | some key => simp only [checkedWrite_val, pure_bind]

theorem guarded_bind {length : Nat} (f : Nat → Except Stop α) :
    m.guarded length >>= f =
      if 4096 < m.index.toNat + length then
        throw (.fault (.outOfRange m.index.toNat length))
      else f m.index.toNat := by
  unfold guarded
  split
  · rfl
  · rfl

theorem checkedDraw_eq : m.checkedDraw i = (m.drawSprite i).mapError .fault := by
  rw [checkedDraw, guarded_bind]
  split
  · next h =>
    rw [drawSprite, Memory.load_eq_error m.memory h]
    rfl
  · next h =>
    have hb : m.index.toNat + i.n ≤ 4096 := Nat.le_of_not_lt h
    rw [drawSprite, Memory.load_eq_ok m.memory hb, Bank.read_val, pure_bind, Bank.read_val,
      pure_bind, Bank.readBlock_eq _ hb, pure_bind, Bank.writeBlock_eq _ (by simp), pure_bind]
    rw [Sprite.checkedMask_eq List.length_ofFn (Nat.le_of_lt i.n.isLt), pure_bind,
      checkedWrite_flag, pure_bind, Display.overlaps_covers, Display.toggled_covers]
    rfl

theorem checkedStore_eq (bytes : List Byte) :
    m.checkedStore bytes = (m.storeAtIndex bytes).mapError .fault := by
  rw [checkedStore, guarded_bind]
  split
  · next h =>
    rw [storeAtIndex, Memory.store_eq_error m.memory h]
    rfl
  · next h =>
    have hb := Nat.le_of_not_lt h
    rw [storeAtIndex, Memory.store_eq_ok m.memory hb, Bank.writeBlock_eq _ hb, pure_bind]
    rfl

theorem readBlock_registers {count : Nat} (h : count ≤ 16) :
    m.registers.readBlock 0 count = pure (m.firstRegisters count) := by
  rw [Bank.readBlock_eq _ (by omega)]
  refine congrArg pure (List.ext_getElem ?_ fun r hr _ => ?_)
  · simp [firstRegisters, h]
  · simp [firstRegisters, Bank.getElem_toList]

theorem checkedLoad_eq :
    m.checkedPerform i .loadRegisters = (m.perform i .loadRegisters).mapError .fault := by
  rw [checkedPerform, guarded_bind]
  split
  · next h =>
    rw [perform, Memory.load_eq_error m.memory h]
    rfl
  · next h =>
    have hb := Nat.le_of_not_lt h
    rw [perform, Memory.load_eq_ok m.memory hb, Bank.readBlock_eq _ hb, pure_bind,
      Bank.writeBlock_eq, pure_bind]
    · rfl
    · rw [Nat.zero_add, List.length_ofFn]
      exact i.x.isLt

theorem checkedPerform_eq (op : Operation) :
    m.checkedPerform i op = (m.perform i op).mapError .fault := by
  cases op with
  | noOp | clearScreen | jump | setIndex => rfl
  | ret =>
    rw [checkedPerform, perform, mapError_bind, CallStack.checkedPop_eq]
    rfl
  | call =>
    rw [checkedPerform, perform, mapError_bind, CallStack.checkedPush_eq]
    rfl
  | skip condition =>
    rw [checkedPerform, checkedHolds_eq, pure_bind]
    rfl
  | setByte => exact m.checkedWrite_val i.x i.byte
  | addByte =>
    rw [checkedPerform, Bank.read_val, pure_bind]
    exact m.checkedWrite_val i.x _
  | arithmetic kind => exact m.checkedCompute_eq kind i.x i.y
  | jumpOffset =>
    rw [checkedPerform, Bank.read_of_lt _ (by decide), pure_bind]
    rfl
  | random =>
    rw [checkedPerform, checkedWrite_val, pure_bind]
    rfl
  | draw => exact m.checkedDraw_eq i
  | readDelay => exact m.checkedWrite_val i.x m.delay
  | awaitKey => exact m.checkedTakeKey_eq i.x
  | setDelay | setSound | addIndex | glyph =>
    rw [checkedPerform, Bank.read_val, pure_bind]
    rfl
  | storeDecimal =>
    rw [checkedPerform, Bank.read_val, pure_bind]
    exact m.checkedStore_eq _
  | storeRegisters =>
    rw [checkedPerform, readBlock_registers m i.x.isLt, pure_bind]
    exact m.checkedStore_eq _
  | loadRegisters => exact m.checkedLoad_eq i

theorem checkedExecute_eq (word : Int) :
    m.checkedExecute word = (m.execute word).mapError .fault :=
  m.checkedPerform_eq _ _

theorem checkedFetch_eq : m.checkedFetch = m.fetch.mapError .fault := by
  rcases status_cases m with hs | hs
  · rw [fetch_running hs, checkedFetch, hs]
    dsimp only
    split
    · next h =>
      rw [Memory.word_error_iff.mpr ⟨by omega, rfl⟩]
      rfl
    · next h =>
      rw [Memory.word_ok_iff.mpr ⟨by omega, rfl⟩, Bank.read_of_lt _ (by omega), pure_bind,
        Bank.read_of_lt _ (by omega), pure_bind]
      rfl
  · rw [fetch_waiting hs, checkedFetch, hs]
    rfl

theorem checkedClock_eq : m.checkedClock = m.clock.mapError .fault := by
  rw [checkedClock, clock, mapError_bind, checkedFetch_eq]
  simp only [checkedExecute_eq]

-- ---------------------------------------------------------------------------
-- The outcome of a word and of a clock
-- ---------------------------------------------------------------------------

variable {m}

/-- In a machine that can be reached no index is out of range, and an
instruction succeeds or fails in one of the ways of `Fails`. A clock fails
besides where the program counter has no word to fetch; an instruction that it
has fetched finds the program counter two bytes on. -/
theorem reachable_outcome (reachable : m.Reachable) :
    (∀ word : Int, m.checkedExecute word = (m.execute word).mapError .fault ∧
      ∀ fault, m.execute word = .error fault ↔
        Fails m (.ofInt word) (Instruction.ofInt word).operation fault) ∧
    m.checkedClock = m.clock.mapError .fault ∧
    (m.status = .running →
      (m.fetch = .error (.outOfRange m.pc.toNat 2) ↔ 4094 < m.pc.toNat) ∧
      (m.clock = .error (.outOfRange m.pc.toNat 2) ↔ 4094 < m.pc.toNat) ∧
      (m.pc.toNat ≤ 4094 → ∃ word, m.memory.word m.pc.toNat = .ok word ∧
        (m.pc + 2).toNat = m.pc.toNat + 2 ∧
        ∀ fault, m.clock = .error fault ↔
          Fails { m with pc := m.pc + 2, held := word } (.ofWord word)
            (Instruction.ofWord word).operation fault)) ∧
    (m.status = .awaitingKey → ∀ fault, m.clock = .error fault ↔
      Fails m (.ofWord m.held) (Instruction.ofWord m.held).operation fault) := by
  have bounded : m.stack.depth.val ≤ 15 := reachable.bounded
  refine ⟨fun word => ⟨m.checkedExecute_eq word, fun fault => perform_error_iff bounded⟩,
    m.checkedClock_eq, fun running => ⟨fetch_past_iff running, clock_past_iff bounded running, ?_⟩,
    fun waiting fault => clock_fails_iff bounded (fetch_waiting waiting)⟩
  intro inside
  obtain ⟨word, fetched⟩ : ∃ word, m.memory.word m.pc.toNat = .ok word :=
    ⟨_, Memory.word_ok_iff.mpr ⟨by omega, rfl⟩⟩
  exact ⟨word, fetched, toNat_next fetched,
    fun fault => clock_fails_iff bounded (fetch_word running fetched)⟩

def endlessCalls : Machine :=
  (powerOn ⟨0, 0⟩).respondAll [.loadRom [0x22, 0x00], .frame 15]

theorem reachable_outcome_overflow :
    endlessCalls.clock = .error (.stackOverflow 0x202 15) ∧
      endlessCalls.checkedClock = .error (.fault (.stackOverflow 0x202 15)) := by
  have here : endlessCalls.status = .running ∧ endlessCalls.pc.toNat = 0x200 ∧
      endlessCalls.memory.word endlessCalls.pc.toNat = .ok 0x2200 ∧
      endlessCalls.stack.depth.val = 15 := by
    decide +kernel
  have outcome := reachable_outcome (m := endlessCalls) ⟨_, _, rfl⟩
  have calls : (Instruction.ofWord 0x2200).operation = .call := by decide
  -- from here on the program must not be run again
  generalize endlessCalls = m at here outcome ⊢
  obtain ⟨running, hpc, hword, full⟩ := here
  obtain ⟨-, hchecked, hrunning, -⟩ := outcome
  obtain ⟨word, fetched, hnext, hfails⟩ := (hrunning running).2.2 (by omega)
  cases hword.symm.trans fetched
  rw [calls] at hfails
  have overflow : m.clock = .error (.stackOverflow (m.pc + 2).toNat 15) :=
    (hfails _).mpr (.overflow full)
  rw [hnext, hpc] at overflow
  refine ⟨overflow, ?_⟩
  rw [hchecked, overflow]
  rfl

end Machine

end Chip8
