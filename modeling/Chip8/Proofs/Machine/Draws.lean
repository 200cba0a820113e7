import Chip8.Proofs.Machine.History
import Chip8.Proofs.Machine.WriteSet

/-!
# The random stream of a run

Only the instruction that draws a byte moves the random stream, one place for
each draw: no reset, no fault and nothing that a host does. `random_stream`: the
key of a machine is the one it was switched on with after so many draws, and
each draw has taken the byte of the key at its place.
-/

namespace Chip8

def draws (past : List Execution) : List Execution :=
  past.filter fun e => e.instruction.operation = .random

theorem draws_append_self (past : List Execution) (h : e.instruction.operation = .random) :
    draws (past ++ [e]) = draws past ++ [e] := by
  simp [draws, h]

theorem draws_append_other (past : List Execution) (h : e.instruction.operation ≠ .random) :
    draws (past ++ [e]) = draws past := by
  simp [draws, h]

/-- The machine after a draw from the stream of `key`, so many draws from its
start: the key there is split, one half is drawn from and the other kept. -/
def Execution.drawn (e : Execution) (key : Random.Key) (place : Nat) : Machine :=
  { e.before with
    registers := e.before.registers.set e.instruction.x
      ((key.after place).split.2.byte &&& e.instruction.byte)
    random := (key.after place).split.1 }

namespace Machine

theorem random_reset (m : Machine) (clear : Bool) : (m.reset clear).random = m.random := by
  unfold reset
  split
  · rfl
  · rfl

/-- The machine and its past have drawn from the stream of `key`, from its start
and nothing else. -/
structure Streaming (key : Random.Key) (m : Machine) (past : List Execution) : Prop where
  random : m.random = key.after (draws past).length
  drawn : (draws past).map Execution.after = (draws past).mapIdx fun place e => e.drawn key place

namespace Streaming

variable {key : Random.Key}

theorem start (key : Random.Key) : Streaming key (powerOn key) [] where
  random := rfl
  drawn := rfl

theorem of_random (hm : Streaming key m past) (h : after.random = m.random) :
    Streaming key after past where
  random := h.trans hm.random
  drawn := hm.drawn

theorem kept (past : List Execution) : Kept fun m => Streaming key m past where
  load hm h := hm.of_random (by rw [loadRom_eq h])
  reset hm := hm.of_random (random_reset _ _)
  fetch hm h := hm.of_random (by rw [fetch_eq h])
  tick hm := hm.of_random rfl
  setKey hm h := hm.of_random (by rw [setKey_eq h])

theorem recorded : Recorded (Streaming key) where
  kept := kept
  execute {past} e hm := by
    by_cases h : e.instruction.operation = .random
    · have after : e.drawn key (draws past).length = e.after := by
        have performed := e.performed
        rw [h, perform, hm.random] at performed
        exact Except.ok.inj performed
      exact {
        random := by
          rw [draws_append_self past h, List.length_append, List.length_singleton,
            Random.Key.after_succ, ← after, Execution.drawn]
        drawn := by
          rw [draws_append_self past h, List.map_append, List.mapIdx_concat, hm.drawn, after]
          rfl }
    · have same := (perform_changesOnly e.performed).random h
      exact {
        random := by rw [draws_append_other past h, same, hm.random]
        drawn := by rw [draws_append_other past h, hm.drawn] }

end Streaming

/-- The key of a machine tells how many bytes its program has drawn since
power-on, and the draw at each place took the byte that the stream has there,
whatever else was executed or asked of the machine in between. The stream is that
of the seed: it depends on nothing but the key at power-on. -/
theorem random_stream (key : Random.Key) (calls : List Call) :
    let m := (powerOn key).respondAll calls
    let drawn := draws ((powerOn key).history calls)
    m.random = key.after drawn.length ∧
      drawn.map Execution.after = drawn.mapIdx fun place e => e.drawn key place := by
  have streaming := Streaming.recorded.history (Streaming.start key) calls
  exact ⟨streaming.random, streaming.drawn⟩

/-- Three bytes are drawn here, although the machine is reset in between and a
return faults. -/
example : (draws ((powerOn ⟨0, 7⟩).history
    [.loadRom [0xC3, 0xFF, 0x00, 0xEE], .frame 2, .reset false, .execute (some 0xC40F), .clock,
      .reset true])).length = 3 := by
  decide +kernel

end Machine

end Chip8
