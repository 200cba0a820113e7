import Chip8.Proofs.Machine.Run

/-!
# What a run has executed

`history` lists the instructions that a run has executed, each between the
machines before and after it. A request that faults adds nothing but what the
clocks of a frame did before the fault. `Recorded.history` is the induction over
a run that remembers its past.
-/

namespace Chip8

structure Execution where
  before : Machine
  instruction : Instruction
  after : Machine
  performed : before.perform instruction instruction.operation = .ok after

namespace Machine

def executed (m : Machine) (i : Instruction) : List Execution :=
  match performed : m.perform i i.operation with
  | .ok after => [⟨m, i, after, performed⟩]
  | .error _ => []

def clocked (m : Machine) : List Execution :=
  match m.fetch with
  | .ok (fetched, word) => fetched.executed (.ofWord word)
  | .error _ => []

def clockedTimes (m : Machine) : Nat → List Execution
  | 0 => []
  | n + 1 =>
    m.clocked ++
      match m.clock with
      | .ok after => after.clockedTimes n
      | .error _ => []

def executions (m : Machine) : Call → List Execution
  | .execute word => m.executed (.ofInt (m.wordOr word))
  | .clock => m.clocked
  | .frame count => m.tick.clockedTimes count.toNat
  | _ => []

def history (m : Machine) : List Call → List Execution
  | [] => []
  | call :: rest => m.executions call ++ (m.respond call).1.history rest

variable {m after : Machine} {i : Instruction} {e : Execution}

theorem executed_ok (h : m.perform i i.operation = .ok after) :
    m.executed i = [⟨m, i, after, h⟩] := by
  unfold executed
  split
  · next h' =>
    cases h'.symm.trans h
    rfl
  · next h' => cases h'.symm.trans h

theorem executed_error (h : m.perform i i.operation = .error fault) : m.executed i = [] := by
  unfold executed
  split
  · next h' => cases h'.symm.trans h
  · rfl

theorem executions_quiet {call : Call} (quiet : ¬ call.Executes) : m.executions call = [] := by
  cases call with
  | execute | clock | frame => exact absurd trivial quiet
  | _ => rfl

theorem clocked_of_fetch (h : m.fetch = .ok (fetched, word)) :
    m.clocked = fetched.executed (.ofWord word) := by
  rw [clocked, h]

-- ---------------------------------------------------------------------------
-- A property of a machine and its past
-- ---------------------------------------------------------------------------

/-- A property that nothing breaks in a clock, if what is executed is written
down. -/
structure Traced (I : Machine → List Execution → Prop) : Prop where
  fetch {m after : Machine} {word : Word} {past : List Execution} :
    I m past → m.fetch = .ok (after, word) → I after past
  execute {past : List Execution} (e : Execution) : I e.before past → I e.after (past ++ [e])

structure Tracked (I : Machine → List Execution → Prop) : Prop extends Traced I where
  tick {m : Machine} {past : List Execution} : I m past → I m.tick past

structure Recorded (I : Machine → List Execution → Prop) : Prop where
  kept (past : List Execution) : Kept fun m => I m past
  execute {past : List Execution} (e : Execution) : I e.before past → I e.after (past ++ [e])

variable {I : Machine → List Execution → Prop} {past : List Execution}

namespace Traced

theorem executed (h : Traced I) (hm : I m past) (i : Instruction) :
    I (m.settle (m.perform i i.operation)).1 (past ++ m.executed i) := by
  cases hx : m.perform i i.operation with
  | error fault =>
    rw [executed_error hx, List.append_nil]
    exact hm
  | ok after =>
    rw [executed_ok hx]
    exact h.execute ⟨m, i, after, hx⟩ hm

theorem clocked (h : Traced I) (hm : I m past) :
    I (m.settle m.clock).1 (past ++ m.clocked) := by
  cases hf : m.fetch with
  | error fault =>
    rw [Machine.clocked, Machine.clock, hf, List.append_nil]
    exact hm
  | ok fetch =>
    obtain ⟨fetched, word⟩ := fetch
    have hx := h.executed (h.fetch hm hf) (.ofWord word)
    rw [clock_of_fetch hf, clocked_of_fetch hf]
    cases ho : fetched.perform (.ofWord word) (Instruction.ofWord word).operation with
    | error fault =>
      -- the fetch is undone as well
      rw [executed_error ho, List.append_nil]
      exact hm
    | ok after =>
      rw [ho] at hx
      exact hx

theorem clockedTimes (h : Traced I) (hm : I m past) (n : Nat) :
    I (m.clocks n).1 (past ++ m.clockedTimes n) := by
  induction n generalizing m past with
  | zero =>
    rw [Machine.clockedTimes, List.append_nil]
    exact hm
  | succ n ih =>
    have hc := h.clocked hm
    rw [Machine.clocks, Machine.clockedTimes, ← List.append_assoc]
    cases ho : m.clock with
    | error fault =>
      rw [ho] at hc
      rw [List.append_nil]
      exact hc
    | ok after =>
      rw [ho] at hc
      exact ih hc

end Traced

theorem Tracked.respond (h : Tracked I) (hm : I m past) {call : Call} (executes : call.Executes) :
    I (m.respond call).1 (past ++ m.executions call) := by
  cases call with
  | execute word => exact h.executed hm _
  | clock => exact h.clocked hm
  | frame count =>
    rw [respond_frame]
    exact h.clockedTimes (h.tick hm) count.toNat
  | _ => cases executes

namespace Recorded

theorem tracked (h : Recorded I) : Tracked I where
  fetch {_ _ _ past} := (h.kept past).fetch
  tick {_ past} := (h.kept past).tick
  execute := h.execute

theorem respond (h : Recorded I) (hm : I m past) (call : Call) :
    I (m.respond call).1 (past ++ m.executions call) := by
  by_cases hx : call.Executes
  · exact h.tracked.respond hm hx
  · rw [executions_quiet hx, List.append_nil]
    exact (h.kept past).respond hm hx

theorem history (h : Recorded I) (hm : I m past) (calls : List Call) :
    I (m.respondAll calls) (past ++ m.history calls) := by
  induction calls generalizing m past with
  | nil =>
    rw [Machine.history, List.append_nil]
    exact hm
  | cons call rest ih =>
    rw [Machine.history, ← List.append_assoc]
    exact ih (h.respond hm call)

end Recorded

-- ---------------------------------------------------------------------------
-- Where an instruction comes from
-- ---------------------------------------------------------------------------

theorem eq_of_mem_executed (he : e ∈ m.executed i) : e.before = m ∧ e.instruction = i := by
  cases hx : m.perform i i.operation with
  | error fault =>
    rw [executed_error hx] at he
    cases he
  | ok after =>
    rw [executed_ok hx] at he
    obtain rfl := List.mem_singleton.mp he
    exact ⟨rfl, rfl⟩

theorem held_of_mem_clocked (he : e ∈ m.clocked) : e.instruction = .ofWord e.before.held := by
  cases hf : m.fetch with
  | error fault =>
    rw [clocked, hf] at he
    cases he
  | ok fetch =>
    obtain ⟨fetched, word⟩ := fetch
    rw [clocked_of_fetch hf] at he
    obtain ⟨hb, hi⟩ := eq_of_mem_executed he
    rw [hb, hi, held_fetched hf]

theorem held_of_mem_clockedTimes (he : e ∈ m.clockedTimes n) :
    e.instruction = .ofWord e.before.held := by
  induction n generalizing m with
  | zero => cases he
  | succ n ih =>
    rw [clockedTimes, List.mem_append] at he
    rcases he with he | he
    · exact held_of_mem_clocked he
    · cases hc : m.clock with
      | error fault =>
        rw [hc] at he
        cases he
      | ok after =>
        rw [hc] at he
        exact ih he

/-- What a run executes is the word fetched last, but for the words that the host
gives itself. -/
theorem held_or_given (he : e ∈ m.history calls) : e.instruction = .ofWord e.before.held ∨
    ∃ word, .execute (some word) ∈ calls ∧ e.instruction = .ofInt word := by
  induction calls generalizing m with
  | nil => cases he
  | cons call rest ih =>
    rw [history, List.mem_append] at he
    rcases he with he | he
    · cases call with
      | execute word =>
        obtain ⟨hb, hi⟩ := eq_of_mem_executed he
        cases word with
        | none => exact .inl (hi.trans (hb ▸ Instruction.ofInt_toNat _))
        | some word => exact .inr ⟨word, List.mem_cons_self, hi⟩
      | clock => exact .inl (held_of_mem_clocked he)
      | frame count => exact .inl (held_of_mem_clockedTimes he)
      | _ => cases he
    · rcases ih he with hheld | ⟨word, hw, hi⟩
      · exact .inl hheld
      · exact .inr ⟨word, List.mem_cons_of_mem _ hw, hi⟩

end Machine

end Chip8
