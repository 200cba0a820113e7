import Chip8.Bank
import Chip8.Fault

/-!
# Memory

4096 bytes. A block is read or written as a whole: it faults when it would
reach past the end, and then nothing is written.
-/

namespace Chip8

abbrev Memory := Bank 4096 Byte

namespace Memory

def load (memory : Memory) (address length : Nat) : Except Fault (List Byte) :=
  if h : address + length ≤ 4096 then
    .ok (List.ofFn fun i : Fin length => memory.get ⟨address + i, by omega⟩)
  else .error (.outOfRange address length)

def store (memory : Memory) (address : Nat) (bytes : List Byte) : Except Fault Memory :=
  if address + bytes.length ≤ 4096 then .ok (memory.overlay address bytes)
  else .error (.outOfRange address bytes.length)

def word (memory : Memory) (address : Int) : Except Fault Word :=
  if h : 0 ≤ address ∧ address + 1 < 4096 then
    .ok (memory.get ⟨address.toNat, by omega⟩ ++ memory.get ⟨address.toNat + 1, by omega⟩)
  else .error (.outOfRange address 2)

theorem load_eq_ok (memory : Memory) {address length : Nat} (h : address + length ≤ 4096) :
    memory.load address length =
      .ok (List.ofFn fun i : Fin length => memory.get ⟨address + i, by omega⟩) := by
  simp [load, h]

theorem load_eq_error (memory : Memory) {address length : Nat} (h : 4096 < address + length) :
    memory.load address length = .error (.outOfRange address length) := by
  simp [load, Nat.not_le.mpr h]

theorem store_eq_ok (memory : Memory) {address : Nat} {bytes : List Byte}
    (h : address + bytes.length ≤ 4096) :
    memory.store address bytes = .ok (memory.overlay address bytes) := by
  simp [store, h]

theorem store_eq_error (memory : Memory) {address : Nat} {bytes : List Byte}
    (h : 4096 < address + bytes.length) :
    memory.store address bytes = .error (.outOfRange address bytes.length) := by
  simp [store, Nat.not_le.mpr h]

end Memory

def programStart : Nat := 0x200

namespace Font

def start : Nat := 0x50

def glyphSize : Nat := 5

def glyphs : List Byte :=
  [0xF0, 0x90, 0x90, 0x90, 0xF0,
   0x20, 0x60, 0x20, 0x20, 0x70,
   0xF0, 0x10, 0xF0, 0x80, 0xF0,
   0xF0, 0x10, 0xF0, 0x10, 0xF0,
   0x90, 0x90, 0xF0, 0x10, 0x10,
   0xF0, 0x80, 0xF0, 0x10, 0xF0,
   0xF0, 0x80, 0xF0, 0x90, 0xF0,
   0xF0, 0x10, 0x20, 0x40, 0x40,
   0xF0, 0x90, 0xF0, 0x90, 0xF0,
   0xF0, 0x90, 0xF0, 0x10, 0xF0,
   0xF0, 0x90, 0xF0, 0x90, 0x90,
   0xE0, 0x90, 0xE0, 0x90, 0xE0,
   0xF0, 0x80, 0x80, 0x80, 0xF0,
   0xE0, 0x90, 0x90, 0x90, 0xE0,
   0xF0, 0x80, 0xF0, 0x80, 0xF0,
   0xF0, 0x80, 0xF0, 0x80, 0x80]

end Font

def Memory.powerOn : Memory :=
  (Bank.fill 0 : Memory).overlay Font.start Font.glyphs

end Chip8
