import Chip8.Proofs.Monitor.Stepping

/-!
# A frame that fails

A frame is a tick and then clocks, each of which counts by itself: the one that
fails undoes nothing of those before it and leaves nothing of its own
(`frame_keeps_clocks`).
-/

namespace Chip8

-- ---------------------------------------------------------------------------
-- Clocks in a row
-- ---------------------------------------------------------------------------

namespace Machine

variable {m after left : Machine} {fault : Fault} {n j k : Nat}

inductive Clocked : Machine → Nat → Machine → Prop
  | start (m : Machine) : Clocked m 0 m
  | next {m first after : Machine} {n : Nat} (clocked : m.clock = .ok first)
      (rest : Clocked first n after) : Clocked m (n + 1) after

structure StopsAfter (m : Machine) (j : Nat) (left : Machine) (fault : Fault) : Prop where
  clocked : m.Clocked j left
  fails : left.clock = .error fault

theorem StopsAfter.next (clocked : m.clock = .ok first) (h : first.StopsAfter j left fault) :
    m.StopsAfter (j + 1) left fault :=
  ⟨.next clocked h.clocked, h.fails⟩

theorem StopsAfter.unique (h : m.StopsAfter j left fault) (also : m.StopsAfter k other second) :
    k = j := by
  obtain ⟨clocked, fails⟩ := h
  obtain ⟨also, stuck⟩ := also
  induction clocked generalizing k with
  | start m =>
    cases also with
    | start => rfl
    | next clocked _ => cases fails.symm.trans clocked
  | next clocked _ ih =>
    cases also with
    | start => cases stuck.symm.trans clocked
    | next again rest =>
      cases clocked.symm.trans again
      exact congrArg Nat.succ (ih fails rest)

theorem clocks_ok_iff : m.clocks n = (after, .ok ()) ↔ m.Clocked n after := by
  induction n generalizing m with
  | zero =>
    constructor
    · rintro ⟨⟩
      exact .start _
    · rintro ⟨⟩
      rfl
  | succ n ih =>
    rw [clocks]
    cases hc : m.clock with
    | error fault =>
      constructor
      · rintro ⟨⟩
      · rintro (_ | ⟨clocked, -⟩)
        cases hc.symm.trans clocked
    | ok first =>
      constructor
      · intro rest
        exact .next hc (ih.mp rest)
      · rintro (_ | ⟨clocked, rest⟩)
        cases hc.symm.trans clocked
        exact ih.mpr rest

theorem clocks_error_iff : m.clocks n = (left, .error fault) ↔
    ∃ j < n, m.StopsAfter j left fault := by
  induction n generalizing m with
  | zero =>
    constructor
    · rintro ⟨⟩
    · rintro ⟨j, h, -⟩
      cases h
  | succ n ih =>
    rw [clocks]
    cases hc : m.clock with
    | error fault =>
      constructor
      · rintro ⟨⟩
        exact ⟨0, Nat.succ_pos n, .start _, hc⟩
      · rintro ⟨j, -, _ | ⟨clocked, -⟩, fails⟩
        · cases hc.symm.trans fails
          rfl
        · cases hc.symm.trans clocked
    | ok first =>
      constructor
      · intro rest
        obtain ⟨j, h, stops⟩ := ih.mp rest
        exact ⟨j + 1, Nat.succ_lt_succ h, stops.next hc⟩
      · rintro ⟨j, h, _ | ⟨clocked, rest⟩, fails⟩
        · cases hc.symm.trans fails
        · cases hc.symm.trans clocked
          exact ih.mpr ⟨_, Nat.lt_of_succ_lt_succ h, rest, fails⟩

theorem respond_frame_ok_iff {count : Int} :
    m.respond (.frame count) = (after, .ok .done) ↔ m.tick.Clocked count.toNat after := by
  rw [← clocks_ok_iff, respond]
  obtain ⟨reached, outcome⟩ := m.tick.clocks count.toNat
  cases outcome with
  | ok _ => simp
  | error fault => simp

theorem respond_frame_error_iff {count : Int} {failure : Failure} :
    m.respond (.frame count) = (left, .error failure) ↔
      ∃ fault, failure = .fault fault ∧ ∃ j < count.toNat, m.tick.StopsAfter j left fault := by
  simp only [← clocks_error_iff, respond]
  obtain ⟨reached, outcome⟩ := m.tick.clocks count.toNat
  cases outcome with
  | ok _ => simp
  | error fault =>
    constructor
    · rintro ⟨⟩
      exact ⟨fault, rfl, rfl⟩
    · rintro ⟨_, rfl, ⟨⟩⟩
      rfl

end Machine

-- ---------------------------------------------------------------------------
-- A frame in its requests
-- ---------------------------------------------------------------------------

theorem Report.Tells.outcome_eq_iff {report : Report} {monitor : Monitor} {after : Machine}
    {outcome : Machine × Except Failure Answer} {answer : Except Failure Answer}
    (h : report.Tells monitor outcome) :
    report.monitor = { monitor with machine := after } ∧ report.result = answer ↔
      outcome = (after, answer) := by
  obtain ⟨hmonitor, hresult⟩ := h
  rw [hmonitor, hresult, Prod.ext_iff]
  simp

namespace Monitor

def insist (monitor : Monitor) : List Call → Report
  | [] => ⟨monitor, [], .ok .done⟩
  | call :: rest =>
    let first := monitor.respond call
    match first.result with
    | .error _ => first
    | .ok _ =>
      let later := first.monitor.insist rest
      { later with log := first.log ++ later.log }

theorem clocks_eq_insist (monitor : Monitor) (n : Nat) :
    monitor.clocks n = monitor.insist (List.replicate n .clock) := by
  induction n generalizing monitor with
  | zero => rfl
  | succ n ih =>
    rw [List.replicate_succ, clocks, insist]
    simp only [ih]
    rfl

theorem frame_eq_insist (monitor : Monitor) (count : Int) : monitor.respond (.frame count) =
    monitor.insist (.tick :: List.replicate count.toNat .clock) := by
  rw [respond, clocks_eq_insist]
  rfl

/-- A frame is its tick and its clocks, told as if each had been asked for by itself. If
it fails, there is one number of clocks that succeed before one that does not: the
machine is left where these have led, and a further clock fails there in the same way
and does nothing. -/
theorem frame_keeps_clocks (monitor : Monitor) (count : Int) :
    let report := monitor.respond (.frame count)
    let ticked := monitor.machine.tick
    report = monitor.insist (.tick :: List.replicate (max count 0).toNat .clock) ∧
    (∀ after, report.monitor = { monitor with machine := after } ∧ report.result = .ok .done ↔
      ticked.Clocked (max count 0).toNat after) ∧
    ∀ failure, report.result = .error failure → ∃ (j : Nat) (left : Machine) (fault : Fault),
      failure = .fault fault ∧ j < count ∧ ticked.StopsAfter j left fault ∧
      (∀ k other second, ticked.StopsAfter k other second → k = j) ∧
      report.monitor = { monitor with machine := left } ∧
      report.monitor.respond .clock =
        ⟨report.monitor, [.fault fault], .error (.fault fault)⟩ := by
  intro report ticked
  have tells : report.Tells monitor (monitor.machine.respond (.frame count)) :=
    monitor.respond_tells (.frame count)
  have clocks : (max count 0).toNat = count.toNat := by omega
  rw [clocks]
  refine ⟨monitor.frame_eq_insist count, ?_, ?_⟩
  · intro after
    rw [tells.outcome_eq_iff, Machine.respond_frame_ok_iff]
  · intro failure failed
    have outcome := tells.outcome_eq_iff.mp ⟨tells.monitor, failed⟩
    obtain ⟨fault, rfl, j, within, stops⟩ := Machine.respond_frame_error_iff.mp outcome
    refine ⟨j, _, fault, rfl, by omega, stops, fun _ _ _ => stops.unique, tells.monitor, ?_⟩
    rw [tells.monitor]
    exact clock_error stops.fails

/-- The second of five clocks returns from a call that was not made. -/
theorem frame_keeps_clocks_return :
    let m := (Machine.powerOn ⟨0, 0⟩).respondAll [.loadRom [0x60, 0x05, 0x00, 0xEE]]
    let report := respond ⟨m, true⟩ (.frame 5)
    report.monitor.machine.pc = 0x202 ∧ report.monitor.machine.registers.get 0 = 5 ∧
      ∃ failure, report.result = .error failure ∧ ∃ fault, failure = .fault fault ∧
        report.monitor.respond .clock =
          ⟨report.monitor, [.fault fault], .error (.fault fault)⟩ := by
  intro m report
  have here : report.result.toBool = false ∧ report.monitor.machine.pc = 0x202 ∧
      report.monitor.machine.registers.get 0 = 5 := by
    decide +kernel
  obtain ⟨unfinished, pc, register⟩ := here
  obtain ⟨-, -, fails⟩ := frame_keeps_clocks ⟨m, true⟩ 5
  cases failed : report.result with
  | ok answer =>
    rw [failed] at unfinished
    cases unfinished
  | error failure =>
    obtain ⟨_, _, fault, cause, -, -, -, -, again⟩ := fails failure failed
    exact ⟨pc, register, failure, rfl, fault, cause, again⟩

end Monitor

end Chip8
