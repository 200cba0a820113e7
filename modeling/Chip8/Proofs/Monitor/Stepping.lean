import Chip8.Proofs.Machine.Run
import Chip8.Proofs.Machine.WriteSet
import Chip8.Proofs.Monitor.Session

/-!
# A clock in two requests

A host can fetch and then execute what was fetched. `stepped_eq_clock`: to the
machine and in the log this is a clock, but for the fetch that stays done when
the instruction faults.
-/

namespace Chip8.Monitor

def stepped (monitor : Monitor) : Report :=
  let first := monitor.respond .fetch
  match first.result with
  | .error _ => first
  | .ok _ =>
    let second := first.monitor.respond (.execute none)
    { second with log := first.log ++ second.log }

variable {monitor : Monitor} {fetched : Machine} {word : Word} {fault : Fault}

theorem clock_error (h : monitor.machine.clock = .error fault) :
    monitor.clock = ⟨monitor, [.fault fault], .error (.fault fault)⟩ := by
  simp only [clock, h]
  split
  · rfl
  · rfl

theorem clock_of_fetch (h : monitor.machine.fetch = .ok (fetched, word)) :
    monitor.clock = monitor.settle (fetched.execute word.toNat)
      (monitor.notices monitor.machine.status (fetched.pc.toNat - 2) word.toNat) := by
  have hclock : monitor.machine.clock = fetched.execute word.toNat := by
    rw [Machine.clock, h]
    rfl
  cases ho : fetched.execute word.toNat with
  | error fault => exact clock_error (hclock.trans ho)
  | ok after =>
    have clocked : monitor.machine.clock = .ok after := hclock.trans ho
    have held : after.held = word :=
      (Machine.perform_changesOnly ho).held.trans (Machine.held_fetched h)
    rcases Machine.fetch_cases h with ⟨running, hw, rfl⟩ | ⟨waiting, rfl, rfl⟩
    · simp only [clock, running, clocked, settle, held, Machine.toNat_next_sub hw]
    · simp only [clock, waiting, clocked]

theorem stepped_of_fetch (h : monitor.machine.fetch = .ok (fetched, word)) :
    monitor.stepped = settle { monitor with machine := fetched } (fetched.execute word.toNat)
      (monitor.notices monitor.machine.status (fetched.pc.toNat - 2) word.toNat) := by
  have status : fetched.status = monitor.machine.status := by rw [Machine.fetch_eq h]
  have held : fetched.wordOr none = word.toNat := by
    rw [← Machine.held_fetched h]
    rfl
  have first : monitor.respond .fetch =
      ⟨{ monitor with machine := fetched }, [], .ok (.instruction (.ofWord word))⟩ := by
    rw [respond, h]
  rw [stepped, first]
  simp only [respond, execute, status, held, List.nil_append]
  rfl

/-- How a clock and its two steps can end: with the same report, or with the same
fault and nothing else to tell. A clock that fails has done nothing, but what was
fetched in a request of its own stays fetched. -/
inductive Parallel (monitor : Monitor) : Report → Report → Prop
  | done (after : Monitor) (log : List Notice) :
      Parallel monitor ⟨after, log, .ok .done⟩ ⟨after, log, .ok .done⟩
  | notFetched {fault : Fault} (failed : monitor.machine.fetch = .error fault) :
      Parallel monitor ⟨monitor, [.fault fault], .error (.fault fault)⟩
        ⟨monitor, [.fault fault], .error (.fault fault)⟩
  | notExecuted {fetched : Machine} {word : Word} {fault : Fault}
      (fetches : monitor.machine.fetch = .ok (fetched, word)) :
      Parallel monitor ⟨monitor, [.fault fault], .error (.fault fault)⟩
        ⟨{ monitor with machine := fetched }, [.fault fault], .error (.fault fault)⟩

theorem Parallel.log_eq {clocked stepped : Report} (h : Parallel monitor clocked stepped) :
    stepped.log = clocked.log := by
  cases h with
  | done | notFetched | notExecuted => rfl

theorem parallel_stepped (monitor : Monitor) :
    Parallel monitor (monitor.respond .clock) monitor.stepped := by
  cases hf : monitor.machine.fetch with
  | error fault =>
    have hclock : monitor.machine.clock = .error fault := by
      rw [Machine.clock, hf]
      rfl
    rw [respond, clock_error hclock]
    simp only [stepped, respond, hf]
    exact .notFetched hf
  | ok result =>
    obtain ⟨fetched, word⟩ := result
    rw [respond, clock_of_fetch hf, stepped_of_fetch hf]
    cases fetched.execute word.toNat with
    | error fault => exact .notExecuted hf
    | ok after => exact .done ..

/-- A host that fetches and then executes does what a clock does, up to what is
left of a failure, and finds the same text printed. -/
theorem stepped_eq_clock (monitor : Monitor) :
    Parallel monitor (monitor.respond .clock) monitor.stepped ∧ ∀ logger stamp,
      monitor.stepped.printed logger stamp = (monitor.respond .clock).printed logger stamp := by
  refine ⟨parallel_stepped monitor, fun logger stamp => ?_⟩
  rw [Report.printed, (parallel_stepped monitor).log_eq]
  rfl

end Chip8.Monitor
