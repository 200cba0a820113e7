import Chip8.Proofs.Machine.History

/-!
# What has happened to a machine

`events` lists what a run has done to its machine: the instructions executed,
the ticks of the timers, those of frames among them, and the resets. A request
that fails counts for what it had done by then. `Chronicled.events` is the
induction over a run that remembers all of this.
-/

namespace Chip8

inductive Event where
  | executed (e : Execution)
  | ticked
  | reset

def Call.opening : Call → List Event
  | .tick | .frame _ => [.ticked]
  | .reset _ => [.reset]
  | _ => []

namespace Machine

def events (m : Machine) : List Call → List Event
  | [] => []
  | call :: rest =>
    call.opening ++ (m.executions call).map .executed ++ (m.respond call).1.events rest

/-- A property that nothing breaks if all that happens is written down. -/
structure Chronicled (I : Machine → List Event → Prop) : Prop where
  idle (past : List Event) : Idle fun m => I m past
  tick {m : Machine} {past : List Event} : I m past → I m.tick (past ++ [.ticked])
  reset {m : Machine} {clear : Bool} {past : List Event} :
    I m past → I (m.reset clear) (past ++ [.reset])
  execute {past : List Event} (e : Execution) :
    I e.before past → I e.after (past ++ [.executed e])

namespace Chronicled

variable {I : Machine → List Event → Prop} {m : Machine} {past : List Event}

theorem traced (h : Chronicled I) (past : List Event) :
    Traced fun m done => I m (past ++ done.map .executed) where
  fetch := (h.idle _).fetch
  execute e hm := by
    rw [List.map_append, ← List.append_assoc]
    exact h.execute e hm

theorem respond (h : Chronicled I) (hm : I m past) (call : Call) :
    I (m.respond call).1 (past ++ (call.opening ++ (m.executions call).map .executed)) := by
  have nothing {m : Machine} {past : List Event} (hm : I m past) :
      I m (past ++ ([] : List Execution).map .executed) := by
    rwa [List.map_nil, List.append_nil]
  cases call with
  | execute word => exact (h.traced past).executed (nothing hm) _
  | clock => exact (h.traced past).clocked (nothing hm)
  | tick => exact h.tick hm
  | frame count =>
    rw [respond_frame, ← List.append_assoc]
    exact (h.traced _).clockedTimes (nothing (h.tick hm)) count.toNat
  | reset clear => exact h.reset hm
  | _ => exact (h.idle _).respond (nothing hm) trivial

theorem events (h : Chronicled I) (hm : I m past) (calls : List Call) :
    I (m.respondAll calls) (past ++ m.events calls) := by
  induction calls generalizing m past with
  | nil =>
    rw [Machine.events, List.append_nil]
    exact hm
  | cons call rest ih =>
    rw [Machine.events, ← List.append_assoc]
    exact ih (h.respond hm call)

end Chronicled

end Machine

end Chip8
