import Chip8.Bank
import Chip8.Fault

/-!
# The call stack

Sixteen slots for return addresses and a depth, of which calls use fifteen.
A slot that is given up is cleared. Addresses are kept in twelve bits.
-/

namespace Chip8

structure CallStack where
  slots : Bank 16 Word
  depth : Fin 17
  deriving DecidableEq

namespace CallStack

def empty : CallStack :=
  ⟨.fill 0, 0⟩

def ofList (frames : List Word) : CallStack :=
  ⟨(Bank.fill 0).overlay 0 frames, ⟨min frames.length 16, by omega⟩⟩

def frames (stack : CallStack) : List Word :=
  stack.slots.toList.take stack.depth

def maxDepth : Nat := 15

/-- The program counter only serves the report of a fault. -/
def push (stack : CallStack) (address : Word) (pc : Int) : Except Fault CallStack :=
  if h : stack.depth.val < maxDepth then
    have hd : stack.depth.val < 15 := h
    .ok ⟨stack.slots.set ⟨stack.depth, by omega⟩ (address &&& 0xFFF),
      ⟨stack.depth + 1, by omega⟩⟩
  else .error (.stackOverflow pc stack.depth)

def pop (stack : CallStack) (pc : Int) : Except Fault (Word × CallStack) :=
  if h : 0 < stack.depth.val then
    let top : Fin 16 := ⟨stack.depth - 1, by omega⟩
    .ok (stack.slots.get top, ⟨stack.slots.set top 0, ⟨stack.depth - 1, by omega⟩⟩)
  else .error (.stackUnderflow pc)

end CallStack

end Chip8
