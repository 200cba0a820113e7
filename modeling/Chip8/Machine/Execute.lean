import Chip8.Machine
import Chip8.Operation

/-!
# Executing an instruction

One rule for each operation. `X` and `Y` stand for the registers that the
instruction names.
-/

namespace Chip8.Machine

def setRegister (m : Machine) (r : Fin 16) (value : Byte) : Machine :=
  { m with registers := m.registers.set r value }

def skipIf (m : Machine) (condition : Bool) : Machine :=
  if condition then { m with pc := m.pc + 2 } else m

/-- Only the low digit of a register counts as a key. -/
def keyOf (value : Byte) : Fin 16 :=
  Fin.ofNat 16 value.toNat

def holds (m : Machine) (i : Instruction) : Condition → Bool
  | .byteEqual => m.registers.get i.x = i.byte
  | .byteDiffers => m.registers.get i.x ≠ i.byte
  | .registersEqual => m.registers.get i.x = m.registers.get i.y
  | .registersDiffer => m.registers.get i.x ≠ m.registers.get i.y
  | .keyDown => m.keypad.get (keyOf (m.registers.get i.x))
  | .keyUp => !m.keypad.get (keyOf (m.registers.get i.x))

def flagByte (flag : Bool) : Byte :=
  if flag then 1 else 0

/-- The flag is written first, so that the result wins where `X` is the flag
register. -/
def compute (m : Machine) (kind : Arithmetic) (x y : Fin 16) : Machine :=
  let a := m.registers.get x
  let b := m.registers.get y
  let flagged := match kind.flag a b with
    | some flag => m.setRegister flagRegister (flagByte flag)
    | none => m
  flagged.setRegister x (kind.result a b)

def takeKey (m : Machine) (x : Fin 16) : Machine :=
  match m.keypad.lowest? with
  | none => { m with status := .awaitingKey }
  | some key => { m.setRegister x (BitVec.ofNat 8 key) with status := .running }

def decimalDigits (value : Byte) : List Byte :=
  [value / 100, value / 10 % 10, value % 10]

def firstRegisters (m : Machine) (count : Nat) : List Byte :=
  m.registers.toList.take count

def drawSprite (m : Machine) (i : Instruction) : Except Fault Machine := do
  let sprite ← m.memory.load m.index.toNat i.n
  let left := Fin.ofNat 64 (m.registers.get i.x).toNat
  let top := Fin.ofNat 32 (m.registers.get i.y).toNat
  return { m.setRegister flagRegister (flagByte (m.display.collides sprite left top)) with
    display := m.display.draw sprite left top }

def storeAtIndex (m : Machine) (bytes : List Byte) : Except Fault Machine := do
  return { m with memory := ← m.memory.store m.index.toNat bytes }

def perform (m : Machine) (i : Instruction) : Operation → Except Fault Machine
  | .noOp => .ok m
  | .clearScreen => .ok { m with display := .blank }
  | .ret => do
    let (address, stack) ← m.stack.pop m.pc.toNat
    return { m with stack := stack, pc := address }
  | .jump => .ok { m with pc := i.address }
  | .call => do
    let stack ← m.stack.push m.pc m.pc.toNat
    return { m with stack := stack, pc := i.address }
  | .skip condition => .ok (m.skipIf (m.holds i condition))
  | .setByte => .ok (m.setRegister i.x i.byte)
  | .addByte => .ok (m.setRegister i.x (m.registers.get i.x + i.byte))
  | .arithmetic kind => .ok (m.compute kind i.x i.y)
  | .setIndex => .ok { m with index := i.address }
  | .jumpOffset => .ok { m with pc := i.address + (m.registers.get 0).setWidth 16 }
  | .random =>
    let keys := m.random.split
    .ok { m.setRegister i.x (keys.2.byte &&& i.byte) with random := keys.1 }
  | .draw => m.drawSprite i
  | .readDelay => .ok (m.setRegister i.x m.delay)
  | .awaitKey => .ok (m.takeKey i.x)
  | .setDelay => .ok { m with delay := m.registers.get i.x }
  | .setSound => .ok { m with sound := m.registers.get i.x }
  | .addIndex => .ok { m with index := m.index + (m.registers.get i.x).setWidth 16 }
  | .glyph =>
    .ok { m with index :=
      BitVec.ofNat 16 (Font.start + Font.glyphSize * (keyOf (m.registers.get i.x)).val) }
  | .storeDecimal => m.storeAtIndex (decimalDigits (m.registers.get i.x))
  | .storeRegisters => m.storeAtIndex (m.firstRegisters (i.x + 1))
  | .loadRegisters => do
    let bytes ← m.memory.load m.index.toNat (i.x + 1)
    return { m with registers := m.registers.overlay 0 bytes }

def execute (m : Machine) (word : Int) : Except Fault Machine :=
  let i := Instruction.ofInt word
  m.perform i i.operation

end Chip8.Machine
