import Chip8.Monitor
import Chip8.Proofs.Machine.Run
import Chip8.Proofs.Machine.Step

/-!
# Sessions

What a host gets from a monitored machine, request after request: the machine,
the answer and the text that its logger prints. `session_outcomes`: machines and
answers are those of the pure operations alone, so neither the trace nor the
logger has a part in them.
-/

namespace Chip8

namespace Report

def printed (report : Report) (logger : Logger) (stamp : String) : String :=
  logger.printAll stamp (report.log.map Notice.entry)

structure Tells (report : Report) (monitor : Monitor)
    (outcome : Machine × Except Failure Answer) : Prop where
  monitor : report.monitor = { monitor with machine := outcome.1 }
  result : report.result = outcome.2

end Report

def faultOf : Except Failure Answer → Option Fault
  | .error (.fault cause) => some cause
  | _ => none

def Notice.OfHost : Notice → Prop
  | .loadedRom _ | .loadedFile .. | .reset _ => True
  | _ => False

structure Exchange where
  machine : Machine
  result : Except Failure Answer
  printed : String

def Exchange.outcome (exchange : Exchange) : Machine × Except Failure Answer :=
  (exchange.machine, exchange.result)

namespace Monitor

def session (monitor : Monitor) (logger : Logger) (stamp : String) (calls : List Call) :
    List Exchange :=
  (monitor.respondAll calls).map fun report =>
    ⟨report.monitor.machine, report.result, report.printed logger stamp⟩

variable (monitor : Monitor)

-- ---------------------------------------------------------------------------
-- One request
-- ---------------------------------------------------------------------------

theorem settle_tells (outcome : Except Fault Machine) (log : Machine → List Notice) :
    (monitor.settle outcome log).Tells monitor (monitor.machine.settle outcome) := by
  cases outcome with
  | ok after => exact ⟨rfl, rfl⟩
  | error fault => exact ⟨rfl, rfl⟩

theorem clock_tells :
    monitor.clock.Tells monitor (monitor.machine.settle monitor.machine.clock) := by
  simp only [clock]
  split
  · exact monitor.settle_tells ..
  · exact monitor.settle_tells ..

theorem clocks_tells (n : Nat) :
    (monitor.clocks n).Tells monitor (monitor.machine.follow .done (List.replicate n .clock)) := by
  induction n generalizing monitor with
  | zero => exact ⟨rfl, rfl⟩
  | succ n ih =>
    have first := monitor.clock_tells
    rw [List.replicate_succ, Machine.follow, Step.clock, Step.ofChange]
    cases hc : monitor.machine.clock with
    | error fault =>
      rw [hc] at first
      have failed : monitor.clock.result = .error (.fault fault) := first.result
      rw [clocks, failed]
      exact ⟨first.monitor, first.result⟩
    | ok after =>
      rw [hc] at first
      have done : monitor.clock.result = .ok .done := first.result
      have later := ih monitor.clock.monitor
      rw [clocks, done]
      rw [first.monitor] at later ⊢
      exact ⟨later.monitor, later.result⟩

/-- A monitor does what its machine does by itself. -/
theorem respond_tells (call : Call) :
    (monitor.respond call).Tells monitor (monitor.machine.respond call) := by
  cases call with
  | loadRom bytes =>
    rw [respond, Machine.respond]
    cases bytes.mapM byte? with
    | some rom => exact monitor.settle_tells ..
    | none => exact ⟨rfl, rfl⟩
  | loadFile name contents =>
    cases contents with
    | ok rom => exact monitor.settle_tells ..
    | error cause => exact ⟨rfl, rfl⟩
  | reset clear => exact ⟨rfl, rfl⟩
  | fetch =>
    rw [respond, Machine.respond]
    cases monitor.machine.fetch with
    | ok fetched => exact ⟨rfl, rfl⟩
    | error fault => exact ⟨rfl, rfl⟩
  | execute word => exact monitor.settle_tells ..
  | clock => exact monitor.clock_tells
  | tick => exact ⟨rfl, rfl⟩
  | frame count =>
    rw [Machine.respond_eq_follow]
    have ticked := clocks_tells { monitor with machine := monitor.machine.tick } count.toNat
    exact ⟨ticked.monitor, ticked.result⟩
  | setKey key pressed =>
    rw [respond, Machine.respond]
    cases key.keyName? with
    | some name => exact monitor.settle_tells ..
    | none => exact ⟨rfl, rfl⟩
  | disassemble programOnly =>
    rw [respond, Machine.respond]
    cases monitor.machine.listing programOnly with
    | ok text => exact ⟨rfl, rfl⟩
    | error bad => exact ⟨rfl, rfl⟩

-- ---------------------------------------------------------------------------
-- What is told of one request
-- ---------------------------------------------------------------------------

inductive Uneventful : Report → Prop
  | faulted (monitor : Monitor) (cause : Fault) :
      Uneventful ⟨monitor, [.fault cause], .error (.fault cause)⟩
  | told {report : Report} (faultless : faultOf report.result = none)
      (host : ∀ notice ∈ report.log, notice.OfHost) : Uneventful report

theorem Uneventful.silent (faultless : faultOf result = none) :
    Uneventful ⟨monitor, [], result⟩ :=
  .told faultless fun _ h => absurd h List.not_mem_nil

theorem settle_uneventful (outcome : Except Fault Machine) {log : Machine → List Notice}
    (host : ∀ after, ∀ notice ∈ log after, notice.OfHost) :
    Uneventful (monitor.settle outcome log) := by
  cases outcome with
  | ok after => exact .told rfl (host after)
  | error fault => exact .faulted monitor fault

theorem respond_uneventful {call : Call} (quiet : ¬ call.Executes) :
    Uneventful (monitor.respond call) := by
  cases call with
  | loadRom bytes =>
    rw [respond]
    split
    · exact settle_uneventful _ _ fun after => by simp [Notice.OfHost]
    · exact .silent _ rfl
  | loadFile name contents =>
    cases contents with
    | ok rom => exact settle_uneventful _ _ fun after => by simp [Notice.OfHost]
    | error cause => exact .silent _ rfl
  | reset clear => exact .told rfl (by simp [respond, Notice.OfHost])
  | fetch =>
    rw [respond]
    split
    · exact .silent _ rfl
    · exact .faulted _ _
  | tick => exact .silent _ rfl
  | setKey key pressed =>
    rw [respond]
    split
    · exact settle_uneventful _ _ fun after => by simp
    · exact .silent _ rfl
  | disassemble programOnly =>
    rw [respond]
    split
    · exact .silent _ rfl
    · exact .silent _ rfl
  | execute | clock | frame => exact absurd trivial quiet

-- ---------------------------------------------------------------------------
-- A session
-- ---------------------------------------------------------------------------

theorem respondAll_outcomes (calls : List Call) :
    (monitor.respondAll calls).map (fun report => (report.monitor.machine, report.result)) =
      monitor.machine.followAll calls := by
  induction calls generalizing monitor with
  | nil => rfl
  | cons call rest ih =>
    obtain ⟨hmonitor, hresult⟩ := monitor.respond_tells call
    rw [Machine.respond_eq_follow] at hmonitor hresult
    rw [respondAll, Machine.followAll, List.map_cons, ih, hmonitor, hresult]

/-- Whatever is traced and logged, the machine after each request and its answer
are found by folding the pure operations over the machine at the start, each
frame a tick and its clocks up to the first that faults. -/
theorem session_outcomes (m : Machine) (tracing other : Bool) (logger second : Logger)
    (stamp later : String) (calls : List Call) :
    (session ⟨m, tracing⟩ logger stamp calls).map Exchange.outcome = m.followAll calls ∧
      (session ⟨m, other⟩ second later calls).map Exchange.outcome =
        (session ⟨m, tracing⟩ logger stamp calls).map Exchange.outcome := by
  have outcomes (monitor : Monitor) (logger : Logger) (stamp : String) :
      (monitor.session logger stamp calls).map Exchange.outcome =
        monitor.machine.followAll calls := by
    rw [session, List.map_map]
    exact monitor.respondAll_outcomes calls
  exact ⟨outcomes .., (outcomes ..).trans (outcomes ⟨m, tracing⟩ logger stamp).symm⟩

end Monitor

end Chip8
