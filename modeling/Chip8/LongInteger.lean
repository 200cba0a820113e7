import Chip8.Text.Numeral

/-!
# Long integers

Some numbers have to fit a machine integer of 64 bits with a sign.
-/

namespace Chip8.LongInteger

abbrev Fits (value : Int) : Prop :=
  -9223372036854775808 ≤ value ∧ value ≤ 9223372036854775807

def tooLarge : String := "Python int too large to convert to C long"

def outOfBounds (value : Int) (format : String) : String :=
  if Fits value then
    "Python integer " ++ Numeral.decimal value ++ " out of bounds for " ++ format
  else tooLarge

end Chip8.LongInteger
