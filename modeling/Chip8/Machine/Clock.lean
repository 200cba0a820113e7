import Chip8.Machine.Execute

/-!
# The clock, the timers and the keys

What a host does to a machine between the instructions, and the cycle that
fetches and executes one.
-/

namespace Chip8.Machine

/-- While a key is awaited the held word is fetched again and nothing moves. -/
def fetch (m : Machine) : Except Fault (Machine × Word) :=
  match m.status with
  | .awaitingKey => .ok (m, m.held)
  | .running => do
    let word ← m.memory.word m.pc.toNat
    return ({ m with pc := m.pc + 2, held := word }, word)

/-- Fetch and execute; a fault in either leaves nothing of the other. -/
def clock (m : Machine) : Except Fault Machine := do
  let (fetched, word) ← m.fetch
  fetched.execute word.toNat

def countDown (timer : Byte) : Byte :=
  BitVec.ofNat 8 (timer.toNat - 1)

def tick (m : Machine) : Machine :=
  { m with delay := countDown m.delay, sound := countDown m.sound }

def setKey (m : Machine) (name : KeyName) (pressed : Bool) : Except Fault Machine :=
  match name with
  | .key key => .ok { m with keypad := m.keypad.set key pressed }
  | .unknown shown => .error (.badKey shown)

def loadRom (m : Machine) (rom : List Byte) : Except Fault Machine :=
  if rom.length ≤ romCapacity then
    .ok { m with memory := m.memory.overlay programStart rom, romSize := rom.length }
  else .error (.romTooLarge rom.length)

end Chip8.Machine
