import Chip8.Machine
import Chip8.Instruction
import Chip8.Text.Numeral

/-!
# The register dump

Five lines for a debugging view: counters, the operands of the held word, the
sixteen registers in two rows, timers and status.
-/

namespace Chip8.RegisterDump

def field (name : String) (width n : Nat) : String :=
  name ++ ": $0x" ++ Numeral.hex width n

def counters (m : Machine) : String :=
  "  ".intercalate [field "PC" 4 m.pc.toNat, field "SP" 2 m.stack.depth, field "I" 4 m.index.toNat]

def operands (i : Instruction) : String :=
  "  ".intercalate [field "X" 2 i.x, field "Y" 2 i.y, field "N" 2 i.n, field "NN" 2 i.byte.toNat,
    field "NNN" 4 i.address.toNat]

def register (m : Machine) (r : Fin 16) : String :=
  "V" ++ Numeral.hex 1 r.val ++ ": $" ++ Numeral.hex 2 (m.registers.get r).toNat

def row (m : Machine) (rs : List (Fin 16)) : String :=
  "  ".intercalate (rs.map (register m))

def timers (m : Machine) : String :=
  "  ".intercalate ["DT: " ++ Numeral.decimal m.delay.toNat,
    "ST: " ++ Numeral.decimal m.sound.toNat, "Status: " ++ m.status.name]

def lines (m : Machine) : List String :=
  [counters m, operands (.ofWord m.held), row m [0, 1, 2, 3, 4, 5, 6, 7],
    row m [8, 9, 10, 11, 12, 13, 14, 15], timers m]

end Chip8.RegisterDump
