import Chip8.CallStack
import Chip8.Display
import Chip8.Keypad
import Chip8.Memory
import Chip8.Random

/-!
# The machine

Its whole state, as it is at power-on and after a reset.
-/

namespace Chip8

abbrev Registers := Bank 16 Byte

def flagRegister : Fin 16 := 0xF

inductive Status where
  | running
  | awaitingKey
  deriving DecidableEq

def Status.name : Status → String
  | .running => "RUNNING"
  | .awaitingKey => "AWAITING_KEY"

/-- `held` is the word that was fetched last; it is executed again on every
clock while a key is awaited. -/
structure Machine where
  random : Random.Key
  memory : Memory
  pc : Word
  display : Display
  stack : CallStack
  delay : Byte
  sound : Byte
  keypad : Keypad
  registers : Registers
  index : Word
  held : Word
  status : Status
  romSize : Int
  deriving DecidableEq

namespace Machine

def powerOn (random : Random.Key) : Machine where
  random := random
  memory := .powerOn
  pc := BitVec.ofNat 16 programStart
  display := .blank
  stack := .empty
  delay := 0
  sound := 0
  keypad := .fill false
  registers := .fill 0
  index := 0
  held := 0
  status := .running
  romSize := 0

/-- Memory and the loaded program stay unless they are to be cleared too; the
random stream goes on. -/
def reset (m : Machine) (clear : Bool) : Machine :=
  if clear then powerOn m.random
  else { powerOn m.random with memory := m.memory, romSize := m.romSize }

end Machine

end Chip8
