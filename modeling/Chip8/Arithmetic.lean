import Chip8.Bank

/-!
# Register arithmetic

Nine operations on two bytes. The last five also give a flag: the carry, the
absence of a borrow, or the bit that was shifted out.
-/

namespace Chip8

inductive Arithmetic where
  | copy
  | or
  | and
  | xor
  | add
  | subtract
  | shiftRight
  | subtractFrom
  | shiftLeft
  deriving DecidableEq

namespace Arithmetic

def result : Arithmetic → Byte → Byte → Byte
  | .copy, _, b => b
  | .or, a, b => a ||| b
  | .and, a, b => a &&& b
  | .xor, a, b => a ^^^ b
  | .add, a, b => a + b
  | .subtract, a, b => a - b
  | .shiftRight, a, _ => a >>> 1
  | .subtractFrom, a, b => b - a
  | .shiftLeft, a, _ => a <<< 1

def flag : Arithmetic → Byte → Byte → Option Bool
  | .copy, _, _ | .or, _, _ | .and, _, _ | .xor, _, _ => none
  | .add, a, b => some (255 < a.toNat + b.toNat)
  | .subtract, a, b => some (b ≤ a)
  | .shiftRight, a, _ => some (a.getLsbD 0)
  | .subtractFrom, a, b => some (a ≤ b)
  | .shiftLeft, a, _ => some a.msb

end Arithmetic

end Chip8
