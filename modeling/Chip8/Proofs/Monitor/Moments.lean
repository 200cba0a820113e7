import Chip8.Proofs.Machine.Run
import Chip8.Proofs.Monitor.Session

/-!
# A session moment by moment

A frame is a tick and then clocks, up to the first that faults; every other request
happens at one moment. `moments_induction` follows a run from moment to moment, and
the log of a session is what is told at its moments, in order (`log_respondAll`).
-/

namespace Chip8

structure Moment where
  machine : Machine
  call : Call

def Call.Single : Call → Prop
  | .frame _ => False
  | _ => True

namespace Machine

def clockMoments (m : Machine) : Nat → List Moment
  | 0 => []
  | n + 1 =>
    ⟨m, .clock⟩ ::
      match m.clock with
      | .ok after => after.clockMoments n
      | .error _ => []

def momentsOf (m : Machine) : Call → List Moment
  | .frame count => ⟨m, .tick⟩ :: m.tick.clockMoments count.toNat
  | call => [⟨m, call⟩]

def moments (m : Machine) : List Call → List Moment
  | [] => []
  | call :: rest => m.momentsOf call ++ (m.respond call).1.moments rest

variable {m : Machine} {call : Call} {calls : List Call} {x : Moment}

theorem call_of_mem_clockMoments (hx : x ∈ m.clockMoments n) : x.call = .clock := by
  induction n generalizing m with
  | zero => cases hx
  | succ n ih =>
    rw [clockMoments] at hx
    rcases List.mem_cons.mp hx with rfl | hx
    · rfl
    · cases hc : m.clock with
      | ok after =>
        rw [hc] at hx
        exact ih hx
      | error fault =>
        rw [hc] at hx
        cases hx

theorem single_of_mem_momentsOf (hx : x ∈ m.momentsOf call) :
    x.call.Single ∧ (call.Driven → x.call.Driven) := by
  cases call with
  | frame count =>
    rcases List.mem_cons.mp hx with rfl | hx
    · exact ⟨trivial, fun _ => trivial⟩
    · rw [call_of_mem_clockMoments hx]
      exact ⟨trivial, fun _ => trivial⟩
  | _ =>
    obtain rfl := List.mem_singleton.mp hx
    exact ⟨trivial, id⟩

theorem single_of_mem_moments (hx : x ∈ m.moments calls) :
    x.call.Single ∧ ((∀ call ∈ calls, call.Driven) → x.call.Driven) := by
  induction calls generalizing m with
  | nil => cases hx
  | cons call rest ih =>
    rcases List.mem_append.mp hx with hx | hx
    · obtain ⟨single, driven⟩ := single_of_mem_momentsOf hx
      exact ⟨single, fun all => driven (all call List.mem_cons_self)⟩
    · obtain ⟨single, driven⟩ := ih hx
      exact ⟨single, fun all => driven fun c hc => all c (List.mem_cons_of_mem _ hc)⟩

-- ---------------------------------------------------------------------------
-- From moment to moment
-- ---------------------------------------------------------------------------

section

variable {I : Machine → List Moment → Prop} {past : List Moment}
  (step : ∀ {m past call}, call.Single → I m past → I (m.respond call).1 (past ++ [⟨m, call⟩]))

include step

theorem clockMoments_induction (start : I m past) (n : Nat) :
    I (m.clocks n).1 (past ++ m.clockMoments n) := by
  induction n generalizing m past with
  | zero =>
    rw [clockMoments, List.append_nil]
    exact start
  | succ n ih =>
    have single : Call.clock.Single := trivial
    have next : I (m.settle m.clock).1 (past ++ [⟨m, .clock⟩]) := step single start
    rw [clocks, clockMoments, List.append_cons]
    cases hc : m.clock with
    | ok after =>
      rw [hc] at next
      exact ih next
    | error fault =>
      rw [hc] at next
      rw [List.append_nil]
      exact next

/-- What holds before the first moment and is kept at every moment holds after the last. -/
theorem moments_induction (start : I m past) (calls : List Call) :
    I (m.respondAll calls) (past ++ m.moments calls) := by
  induction calls generalizing m past with
  | nil =>
    rw [moments, List.append_nil]
    exact start
  | cons call rest ih =>
    rw [moments, ← List.append_assoc]
    refine ih ?_
    cases call with
    | frame count =>
      have single : Call.tick.Single := trivial
      have ticked : I m.tick (past ++ [⟨m, .tick⟩]) := step single start
      rw [respond_frame, momentsOf, List.append_cons]
      exact clockMoments_induction step ticked count.toNat
    | _ => exact step trivial start

end

end Machine

-- ---------------------------------------------------------------------------
-- What is told
-- ---------------------------------------------------------------------------

def Moment.log (x : Moment) (tracing : Bool) : List Notice :=
  (Monitor.respond ⟨x.machine, tracing⟩ x.call).log

def Notice.OfExecution : Notice → Prop
  | .executed .. | .awaitingKey _ | .resumed _ => True
  | _ => False

namespace Monitor

def Quiet (log : List Notice) : Prop :=
  ∀ notice ∈ log, ¬ notice.OfExecution

theorem Uneventful.quiet (h : Uneventful report) : Quiet report.log := by
  cases h with
  | faulted monitor cause => simp [Quiet, Notice.OfExecution]
  | told faultless host =>
    intro notice hn
    have mine := host notice hn
    cases notice with
    | executed | awaitingKey | resumed => cases mine
    | _ => exact id

theorem quiet_respond {monitor : Monitor} {call : Call} (h : ¬ call.Executes) :
    Quiet (monitor.respond call).log :=
  (monitor.respond_uneventful h).quiet

theorem log_clocks (m : Machine) (tracing : Bool) (n : Nat) :
    (clocks ⟨m, tracing⟩ n).log = (m.clockMoments n).flatMap (·.log tracing) := by
  induction n generalizing m with
  | zero => rfl
  | succ n ih =>
    have first := clock_tells ⟨m, tracing⟩
    rw [clocks, Machine.clockMoments, List.flatMap_cons]
    cases hc : m.clock with
    | ok after =>
      rw [hc] at first
      have done : (clock ⟨m, tracing⟩).result = .ok .done := first.result
      simp only [done, first.monitor]
      exact congrArg _ (ih after)
    | error fault =>
      rw [hc] at first
      have failed : (clock ⟨m, tracing⟩).result = .error (.fault fault) := first.result
      simp only [failed]
      exact (List.append_nil _).symm

theorem log_respond (m : Machine) (tracing : Bool) (call : Call) :
    (respond ⟨m, tracing⟩ call).log = (m.momentsOf call).flatMap (·.log tracing) := by
  cases call with
  | frame count => exact log_clocks m.tick tracing count.toNat
  | _ => exact (List.append_nil _).symm

theorem log_respondAll (m : Machine) (tracing : Bool) (calls : List Call) :
    (respondAll ⟨m, tracing⟩ calls).flatMap Report.log =
      (m.moments calls).flatMap (·.log tracing) := by
  induction calls generalizing m with
  | nil => rfl
  | cons call rest ih =>
    rw [respondAll, Machine.moments, List.flatMap_cons, List.flatMap_append, log_respond,
      (respond_tells ⟨m, tracing⟩ call).monitor, ih]

def heard (monitor : Monitor) (logger : Logger) (calls : List Call) : List Notice :=
  ((monitor.respondAll calls).flatMap Report.log).filter fun notice => logger.passes notice.entry

theorem heard_debug {logger : Logger} (debug : logger.threshold = .debug) (m : Machine)
    (tracing : Bool) (calls : List Call) :
    heard ⟨m, tracing⟩ logger calls = (m.moments calls).flatMap (·.log tracing) := by
  have passes (notice : Notice) : logger.passes notice.entry = true := by
    rw [Logger.passes, debug]
    exact decide_eq_true (Nat.zero_le _)
  rw [heard, log_respondAll]
  exact List.filter_eq_self.mpr fun notice _ => passes notice

end Monitor

end Chip8
