import Chip8.Arithmetic
import Chip8.Instruction

/-!
# The operations

Thirty-five things that an instruction can ask for. The family digit decides
alone for most; the families 0, 8, E and F look at the rest of the word, and a
word that names nothing does nothing.
-/

namespace Chip8

inductive Condition where
  | byteEqual
  | byteDiffers
  | registersEqual
  | registersDiffer
  | keyDown
  | keyUp
  deriving DecidableEq

inductive Operation where
  | noOp
  | clearScreen
  | ret
  | jump
  | call
  | skip (condition : Condition)
  | setByte
  | addByte
  | arithmetic (kind : Arithmetic)
  | setIndex
  | jumpOffset
  | random
  | draw
  | readDelay
  | awaitKey
  | setDelay
  | setSound
  | addIndex
  | glyph
  | storeDecimal
  | storeRegisters
  | loadRegisters
  deriving DecidableEq

namespace Instruction

def arithmetic? (i : Instruction) : Option Arithmetic :=
  match i.n.val with
  | 0x0 => some .copy
  | 0x1 => some .or
  | 0x2 => some .and
  | 0x3 => some .xor
  | 0x4 => some .add
  | 0x5 => some .subtract
  | 0x6 => some .shiftRight
  | 0x7 => some .subtractFrom
  | 0xE => some .shiftLeft
  | _ => none

def peripheral (i : Instruction) : Operation :=
  match i.byte.toNat with
  | 0x07 => .readDelay
  | 0x0A => .awaitKey
  | 0x15 => .setDelay
  | 0x18 => .setSound
  | 0x1E => .addIndex
  | 0x29 => .glyph
  | 0x33 => .storeDecimal
  | 0x55 => .storeRegisters
  | 0x65 => .loadRegisters
  | _ => .noOp

def operation (i : Instruction) : Operation :=
  match i.family.val with
  | 0x1 => .jump
  | 0x2 => .call
  | 0x3 => .skip .byteEqual
  | 0x4 => .skip .byteDiffers
  | 0x5 => .skip .registersEqual
  | 0x6 => .setByte
  | 0x7 => .addByte
  | 0x8 =>
    match i.arithmetic? with
    | some kind => .arithmetic kind
    | none => .noOp
  | 0x9 => .skip .registersDiffer
  | 0xA => .setIndex
  | 0xB => .jumpOffset
  | 0xC => .random
  | 0xD => .draw
  | 0xE =>
    match i.byte.toNat with
    | 0x9E => .skip .keyDown
    | 0xA1 => .skip .keyUp
    | _ => .noOp
  | 0xF => i.peripheral
  | _ =>
    match i.address.toNat with
    | 0x0E0 => .clearScreen
    | 0x0EE => .ret
    | _ => .noOp

end Instruction

namespace Operation

def mnemonic : Operation → String
  | .noOp => "NOP"
  | .clearScreen => "CLS"
  | .ret => "RET"
  | .jump => "JP addr"
  | .call => "CALL addr"
  | .skip .byteEqual => "SE Vx, byte"
  | .skip .byteDiffers => "SNE Vx, byte"
  | .skip .registersEqual => "SE Vx, Vy"
  | .skip .registersDiffer => "SNE Vx, Vy"
  | .skip .keyDown => "SKP Vx"
  | .skip .keyUp => "SKNP Vx"
  | .setByte => "LD Vx, byte"
  | .addByte => "ADD Vx, byte"
  | .arithmetic .copy => "LD Vx, Vy"
  | .arithmetic .or => "OR Vx, Vy"
  | .arithmetic .and => "AND Vx, Vy"
  | .arithmetic .xor => "XOR Vx, Vy"
  | .arithmetic .add => "ADD Vx, Vy"
  | .arithmetic .subtract => "SUB Vx, Vy"
  | .arithmetic .shiftRight => "SHR Vx"
  | .arithmetic .subtractFrom => "SUBN Vx, Vy"
  | .arithmetic .shiftLeft => "SHL Vx"
  | .setIndex => "LD I, addr"
  | .jumpOffset => "JP V0, addr"
  | .random => "RND Vx, byte"
  | .draw => "DRW Vx, Vy, nibble"
  | .readDelay => "LD Vx, DT"
  | .awaitKey => "LD Vx, K"
  | .setDelay => "LD DT, Vx"
  | .setSound => "LD ST, Vx"
  | .addIndex => "ADD I, Vx"
  | .glyph => "LD F, Vx"
  | .storeDecimal => "LD B, Vx"
  | .storeRegisters => "LD [I], Vx"
  | .loadRegisters => "LD Vx, [I]"

end Operation

end Chip8
