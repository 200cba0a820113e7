import Chip8.Proofs.Machine.History
import Chip8.Proofs.Machine.KeyWait
import Chip8.Proofs.Machine.WriteSet

/-!
# The end of a wait for a key

A waiting machine executes the held word on every clock. Every operation keeps
`HeldSince`: this is still the word that was held when the wait began. It is the
instruction that began the wait, unless the host gave that one; then a clock
executes another word, and the wait need not end.
-/

namespace Chip8

-- ---------------------------------------------------------------------------
-- What began the wait
-- ---------------------------------------------------------------------------

namespace Execution

def BeginsWait (e : Execution) : Prop :=
  e.before.status = .running ∧ e.after.status = .awaitingKey

instance (e : Execution) : Decidable e.BeginsWait :=
  inferInstanceAs (Decidable (_ ∧ _))

theorem BeginsWait.awaits (h : BeginsWait e) : e.instruction.operation = .awaitKey :=
  Machine.awaitKey_of_begins e.performed h.1 h.2

end Execution

def waitStart? (past : List Execution) : Option Execution :=
  past.reverse.find? fun e => e.BeginsWait

theorem waitStart?_append (past : List Execution) (e : Execution) :
    waitStart? (past ++ [e]) = if e.BeginsWait then some e else waitStart? past := by
  rw [waitStart?, List.reverse_append, List.reverse_singleton, List.singleton_append,
    List.find?_cons]
  by_cases h : e.BeginsWait
  · simp [h]
  · simp [h, waitStart?]

namespace Machine

variable {m : Machine}

def HeldSince (m : Machine) (past : List Execution) : Prop :=
  m.status = .awaitingKey → ∃ e, waitStart? past = some e ∧ e.BeginsWait ∧ m.held = e.before.held

theorem HeldSince.start (key : Random.Key) : HeldSince (powerOn key) [] := by
  intro waiting
  cases waiting

theorem HeldSince.kept (past : List Execution) : Kept fun m => HeldSince m past where
  load hm h := by rw [loadRom_eq h]; exact hm
  reset {m clear} _ := by
    cases clear with
    | false => exact nofun
    | true => exact nofun
  fetch hm h := by
    rcases fetch_cases h with ⟨running, -, rfl⟩ | ⟨-, rfl, -⟩
    · exact fun waiting => nomatch running.symm.trans waiting
    · exact hm
  tick hm := hm
  setKey hm h := by rw [setKey_eq h]; exact hm

theorem HeldSince.recorded : Recorded HeldSince where
  kept := HeldSince.kept
  execute {past} e hm waiting := by
    have held : e.after.held = e.before.held := (perform_changesOnly e.performed).held
    rw [waitStart?_append]
    rcases status_cases e.before with running | waited
    · have begins : e.BeginsWait := ⟨running, waiting⟩
      exact ⟨e, if_pos begins, begins, held⟩
    · obtain ⟨start, hstart, begins, hs⟩ := hm waited
      have hn : ¬ e.BeginsWait := fun h => nomatch h.1.symm.trans waited
      exact ⟨start, (if_neg hn).trans hstart, begins, held.trans hs⟩

-- ---------------------------------------------------------------------------
-- The next clock
-- ---------------------------------------------------------------------------

theorem respond_clock_waits (waiting : m.status = .awaitingKey)
    (other : (Instruction.ofWord m.held).operation ≠ .awaitKey) :
    (m.respond .clock).1.status = .awaitingKey := by
  refine settle_keeps (P := fun m => m.status = .awaitingKey) waiting fun after h => ?_
  rw [clock_of_fetch (fetch_waiting waiting)] at h
  rw [(perform_changesOnly h).status other]
  exact waiting

/-- A wait that the word fetched last has begun ends on the next clock with a key
down, and the lowest key goes to the register that its instruction names. Only
with a word that the host gives can a wait begin otherwise; and if the word
fetched last does not wait for a key itself, the clock does not take one. -/
theorem key_wait_ends {key : Random.Key} {calls : List Call} {k : Fin 16}
    (waiting : ((powerOn key).respondAll calls).status = .awaitingKey)
    (down : IsLeast {k | ((powerOn key).respondAll calls).keypad.get k = true} k) :
    let m := (powerOn key).respondAll calls
    ∃ e, waitStart? ((powerOn key).history calls) = some e ∧
      e.instruction.operation = .awaitKey ∧ m.held = e.before.held ∧
      (e.instruction = .ofWord e.before.held ∨
        ∃ word, .execute (some word) ∈ calls ∧ e.instruction = .ofInt word) ∧
      (e.instruction = .ofWord e.before.held → m.clock = .ok { m with
        registers := m.registers.set e.instruction.x (BitVec.ofNat 8 k)
        status := .running }) ∧
      ((Instruction.ofWord e.before.held).operation ≠ .awaitKey →
        (m.respond .clock).1.status = .awaitingKey) := by
  intro m
  obtain ⟨e, start, begins, held⟩ : ∃ e, waitStart? ((powerOn key).history calls) = some e ∧
      e.BeginsWait ∧ m.held = e.before.held :=
    HeldSince.recorded.history (HeldSince.start key) calls waiting
  have executed : e ∈ (powerOn key).history calls :=
    List.mem_reverse.mp (List.mem_of_find?_eq_some start)
  refine ⟨e, start, begins.awaits, held, held_or_given executed, fun same => ?_, fun other => ?_⟩
  · have awaits : (Instruction.ofWord m.held).operation = .awaitKey := by
      rw [held, ← same]
      exact begins.awaits
    rw [same, ← held]
    exact clock_down (fetch_waiting waiting) awaits down
  · exact respond_clock_waits waiting (held ▸ other)

/-- A wait that begins within a frame, with the program overwritten before a key
is pressed. -/
theorem key_wait_ends_frame :
    let m := (powerOn ⟨0, 0⟩).respondAll
      [.loadRom [0xF5, 0x0A], .frame 3, .loadRom [0, 0], .setKey (.whole 7) true]
    m.clock = .ok { m with registers := m.registers.set 5 7, status := .running } := by
  intro m
  have here : m.status = .awaitingKey ∧ m.held = 0xF50A ∧ m.keypad.get 7 = true ∧
      ∀ k, m.keypad.get k = true → 7 ≤ k := by
    decide +kernel
  obtain ⟨waiting, held, pressed, least⟩ := here
  obtain ⟨e, -, -, since, given, ends, -⟩ := key_wait_ends waiting ⟨pressed, least⟩
  have same : e.instruction = .ofWord e.before.held :=
    given.resolve_right fun ⟨word, hw, _⟩ => by simp at hw
  have hx : e.instruction.x = 5 := by
    rw [same, ← since, held]
    rfl
  rw [ends same, hx]
  rfl

theorem respondAll_clocks (still : m.clock = .ok m) (n : Nat) :
    m.respondAll (List.replicate n .clock) = m := by
  induction n with
  | zero => rfl
  | succ n ih =>
    rw [List.replicate_succ, respondAll, respond, settle_ok still]
    exact ih

def hostWait : Machine :=
  (powerOn ⟨0, 0⟩).respondAll [.execute (some 0xF30A), .setKey (.whole 7) true]

/-- A key is down, and no number of clocks makes the machine take it. -/
theorem host_wait_locked :
    hostWait.Reachable ∧ hostWait.status = .awaitingKey ∧ hostWait.keypad.get 7 = true ∧
      ∀ n, hostWait.respondAll (List.replicate n .clock) = hostWait := by
  have here : hostWait.status = .awaitingKey ∧ hostWait.keypad.get 7 = true ∧
      hostWait.held = 0 := by
    decide +kernel
  obtain ⟨waiting, pressed, held⟩ := here
  have still : hostWait.clock = .ok hostWait := by
    rw [clock_of_fetch (fetch_waiting waiting), held]
    rfl
  exact ⟨⟨_, _, rfl⟩, waiting, pressed, respondAll_clocks still⟩

end Machine

end Chip8
