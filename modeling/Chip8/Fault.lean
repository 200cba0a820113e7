import Chip8.Datum

/-!
# What can go wrong in the machine

A fault names its cause. Every operation that faults leaves the machine as it
was.
-/

namespace Chip8

inductive Fault where
  | romTooLarge (size : Nat)
  | stackOverflow (pc : Int) (depth : Nat)
  | stackUnderflow (pc : Int)
  | outOfRange (address : Int) (length : Nat)
  | badKey (shown : String)
  deriving DecidableEq

/-- Program memory runs from 0x200 to the end of the 4096 cells. -/
def romCapacity : Nat := 3584

def Fault.message : Fault → String
  | .romTooLarge size =>
    "ROM of " ++ Numeral.decimal size ++ " bytes exceeds program memory capacity of " ++
      Numeral.decimal romCapacity ++ " bytes"
  | .stackOverflow pc depth =>
    "Stack overflow at PC=0x" ++ Numeral.hex 4 pc ++ " (depth " ++ Numeral.decimal depth ++ ")"
  | .stackUnderflow pc => "Stack underflow at PC=0x" ++ Numeral.hex 4 pc
  | .outOfRange address length =>
    "Memory access of " ++ Numeral.decimal length ++ " byte(s) at 0x" ++ Numeral.hex 4 address ++
      " is out of range"
  | .badKey shown => "Key index must be an integer in 0..15, got " ++ shown

end Chip8
