import Chip8.LongInteger
import Chip8.Memory
import Chip8.Operation

/-!
# Listings

A program as text, one line for each word: its address, the name of its
operation and the word itself. Addresses below zero count back from the end of
memory, down to the first byte; the line shows the address that was asked for.
-/

namespace Chip8.Listing

/-- An address further below zero than memory is long. -/
structure BadIndex where
  index : Int
  deriving DecidableEq

/-- What is no long integer is no index at all. -/
def BadIndex.message (bad : BadIndex) : String :=
  if LongInteger.Fits bad.index then
    "index " ++ Numeral.decimal bad.index ++ " is out of bounds for axis 0 with size 4096"
  else
    "only integers, slices (`:`), ellipsis (`...`), numpy.newaxis (`None`) and integer or " ++
      "boolean arrays are valid indices"

def line (address word : Int) : String :=
  "$0x" ++ Numeral.hex 4 address ++ "    " ++
    Numeral.padEnd 18 (Instruction.ofInt word).operation.mnemonic ++
    "  (0x" ++ Numeral.hex 4 word ++ ")"

def byte (memory : Memory) (index : Int) : Except BadIndex Byte :=
  if -4096 ≤ index ∧ index < 4096 then .ok (memory.get (Fin.ofNat 4096 (index % 4096).toNat))
  else .error ⟨index⟩

def word (memory : Memory) (address : Int) : Except BadIndex Word := do
  let high ← byte memory address
  let low ← byte memory (address + 1)
  return high ++ low

def linesFrom (memory : Memory) (address : Int) : Nat → Except BadIndex (List String)
  | 0 => .ok []
  | count + 1 => do
    let w ← word memory address
    return line address w.toNat :: (← linesFrom memory (address + 2) count)

/-- Every second address from `start` on whose word ends before `stop` and
before the end of memory. -/
def range (memory : Memory) (start stop : Int) : Except BadIndex (List String) :=
  linesFrom memory start ((min stop 4096 - start) / 2).toNat

/-- The address that a line of the usual length shows. -/
def addressOf? (text : String) : Option Nat :=
  Numeral.ofHex? ((text.toList.drop 3).take 4)

def wordOf? (text : String) : Option Nat :=
  Numeral.ofHex? ((text.toList.drop 34).take 4)

end Chip8.Listing
