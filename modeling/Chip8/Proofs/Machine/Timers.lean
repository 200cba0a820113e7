import Chip8.Proofs.Machine.Events
import Chip8.Proofs.Machine.WriteSet

/-!
# The timers count ticks

A timer is what the program has last set it to, less the ticks since then, and
zero once there have been more of these (`timers_count_ticks`). Only a reset ends
this: instructions count for nothing else, however many there are between two
ticks, and neither do waits, faults and what else a host does.
-/

namespace Chip8

inductive Timer where
  | delay
  | sound

namespace Event

def isReset : Event → Bool
  | .reset => true
  | _ => false

def isTick : Event → Bool
  | .ticked => true
  | _ => false

end Event

def sinceReset (past : List Event) : List Event :=
  past.reverse.takeWhile fun event => !event.isReset

theorem sinceReset_append (past : List Event) (event : Event) :
    sinceReset (past ++ [event]) = if event.isReset then [] else event :: sinceReset past := by
  simp only [sinceReset, List.reverse_append, List.reverse_singleton, List.singleton_append,
    List.takeWhile_cons]
  cases event.isReset <;> rfl

namespace Timer

def setting : Timer → Operation
  | .delay => .setDelay
  | .sound => .setSound

def set? (timer : Timer) : Event → Option Byte
  | .executed e =>
    if e.instruction.operation = timer.setting then
      some (e.before.registers.get e.instruction.x)
    else none
  | _ => none

def lastSet? (timer : Timer) (past : List Event) : Option Byte :=
  (sinceReset past).findSome? timer.set?

def ticks (timer : Timer) (past : List Event) : Nat :=
  ((sinceReset past).takeWhile fun event => (timer.set? event).isNone).countP Event.isTick

def value (timer : Timer) (past : List Event) : Nat :=
  ((timer.lastSet? past).getD 0).toNat - timer.ticks past

theorem value_reset (timer : Timer) (past : List Event) :
    timer.value (past ++ [.reset]) = 0 := by
  simp [value, lastSet?, ticks, sinceReset_append, Event.isReset]

theorem value_append (timer : Timer) (past : List Event) {event : Event}
    (h : event.isReset = false) : timer.value (past ++ [event]) =
      match timer.set? event with
      | some start => start.toNat
      | none => timer.value past - if event.isTick then 1 else 0 := by
  have since : sinceReset (past ++ [event]) = event :: sinceReset past := by
    simp [sinceReset_append, h]
  cases hs : timer.set? event with
  | some start => simp [value, lastSet?, ticks, since, hs]
  | none => simp [value, lastSet?, ticks, since, hs, List.countP_cons, Nat.sub_add_eq]

end Timer

namespace Machine

def timer (m : Machine) : Timer → Byte
  | .delay => m.delay
  | .sound => m.sound

variable {m after : Machine} {e : Execution} {past : List Event}

theorem timer_tick (m : Machine) (timer : Timer) :
    (m.tick.timer timer).toNat = (m.timer timer).toNat - 1 := by
  have hlt := (m.timer timer).isLt
  have count : m.tick.timer timer = countDown (m.timer timer) := by
    cases timer with
    | delay => rfl
    | sound => rfl
  rw [count, countDown, BitVec.toNat_ofNat]
  exact Nat.mod_eq_of_lt (by omega)

theorem timer_reset (m : Machine) (clear : Bool) (timer : Timer) :
    (m.reset clear).timer timer = 0 := by
  cases clear <;> cases timer <;> rfl

theorem timer_executed (timer : Timer) (e : Execution) :
    e.after.timer timer = (timer.set? (.executed e)).getD (e.before.timer timer) := by
  have performed := e.performed
  by_cases sets : e.instruction.operation = timer.setting
  · rw [sets] at performed
    rw [Timer.set?, if_pos sets]
    cases timer with
    | delay => rw [← Except.ok.inj performed]; rfl
    | sound => rw [← Except.ok.inj performed]; rfl
  · have only := perform_changesOnly performed
    rw [Timer.set?, if_neg sets]
    cases timer with
    | delay => exact only.delay sets
    | sound => exact only.sound sets

/-- The timers show what the past makes them show, and every reading of the delay
timer has found it so. -/
structure Timed (m : Machine) (past : List Event) : Prop where
  value : ∀ timer, (m.timer timer).toNat = timer.value past
  reads : ∀ earlier e, earlier ++ [.executed e] <+: past → e.instruction.operation = .readDelay →
    (e.after.registers.get e.instruction.x).toNat = Timer.delay.value earlier

namespace Timed

theorem start (key : Random.Key) : Timed (powerOn key) [] where
  value timer := by cases timer <;> rfl
  reads earlier e h := by
    have := h.length_le
    simp at this

theorem of_timer (hm : Timed m past) (h : ∀ timer, after.timer timer = m.timer timer) :
    Timed after past where
  value timer := by rw [h, hm.value]
  reads := hm.reads

theorem reads_append (hm : Timed m past) (event : Event)
    (h : ∀ e, event = .executed e → e.instruction.operation = .readDelay →
      (e.after.registers.get e.instruction.x).toNat = Timer.delay.value past)
    (earlier : List Event) (e : Execution) (here : earlier ++ [.executed e] <+: past ++ [event])
    (reads : e.instruction.operation = .readDelay) :
    (e.after.registers.get e.instruction.x).toNat = Timer.delay.value earlier := by
  rcases List.prefix_concat_iff.mp here with last | before
  · obtain ⟨rfl, hlast⟩ := List.append_inj' last rfl
    exact h e (List.cons.inj hlast).1.symm reads
  · exact hm.reads earlier e before reads

theorem read (hm : Timed e.before past) (reads : e.instruction.operation = .readDelay) :
    (e.after.registers.get e.instruction.x).toNat = Timer.delay.value past := by
  have performed := e.performed
  rw [reads] at performed
  rw [← Except.ok.inj performed, setRegister, Bank.get_set_self]
  exact hm.value .delay

theorem chronicled : Chronicled Timed where
  idle past := {
    load := fun hm h => hm.of_timer fun timer => by rw [loadRom_eq h]; cases timer <;> rfl
    fetch := fun hm h => hm.of_timer fun timer => by rw [fetch_eq h]; cases timer <;> rfl
    setKey := fun hm h => hm.of_timer fun timer => by rw [setKey_eq h]; cases timer <;> rfl }
  tick hm := {
    value := fun timer => by
      rw [timer_tick, hm.value, timer.value_append _ rfl]
      rfl
    reads := hm.reads_append _ nofun }
  reset hm := {
    value := fun timer => by
      rw [timer_reset, timer.value_reset]
      rfl
    reads := hm.reads_append _ nofun }
  execute e hm := {
    value := fun timer => by
      rw [timer.value_append _ rfl, timer_executed]
      cases timer.set? (.executed e) with
      | some start => rfl
      | none => exact hm.value timer
    reads := hm.reads_append _ fun e' he reads => by
      cases he
      exact hm.read reads }

end Timed

/-- Whatever has been executed and asked of a machine, its timers show the value
last set less the ticks since, and every reading of the delay timer has given what
it showed at that moment. -/
theorem timers_count_ticks (key : Random.Key) (calls : List Call) :
    let past := (powerOn key).events calls
    (∀ timer, (((powerOn key).respondAll calls).timer timer).toNat = timer.value past) ∧
      ∀ earlier e, earlier ++ [.executed e] <+: past → e.instruction.operation = .readDelay →
        (e.after.registers.get e.instruction.x).toNat = Timer.delay.value earlier := by
  have timed := Timed.chronicled.events (Timed.start key) calls
  exact ⟨timed.value, timed.reads⟩

/-- The delay timer is set to 9; three ticks later, the last of them in a frame that
faults, it reads 6. -/
theorem timers_count_ticks_faulting_frame :
    let calls : List Call := [.loadRom [0x60, 0x09, 0xF0, 0x15, 0xF1, 0x07, 0x00, 0xEE], .frame 2,
      .tick, .tick, .frame 5]
    let past := (powerOn ⟨0, 0⟩).events calls
    (((powerOn ⟨0, 0⟩).respondAll calls).timer .delay).toNat = 6 ∧
      ∃ earlier e, earlier ++ [.executed e] <+: past ∧ e.instruction.operation = .readDelay ∧
        (e.after.registers.get e.instruction.x).toNat = 6 := by
  intro calls past
  obtain ⟨value, reads⟩ := timers_count_ticks ⟨0, 0⟩ calls
  have shown : Timer.delay.value past = 6 ∧ Timer.delay.value (past.take 6) = 6 := by
    decide +kernel
  -- an event has no decidable equality, so the seventh is only asked what it is
  have reading : past[6]?.any (fun event => match event with
      | .executed e => decide (e.instruction.operation = .readDelay)
      | _ => false) = true := by
    decide +kernel
  obtain ⟨event, at6, reading⟩ := (Option.any_eq_true _ _).mp reading
  cases event with
  | executed e =>
    have here : past.take 6 ++ [.executed e] <+: past := by
      rw [← Option.toList_some, ← at6, ← List.take_add_one]
      exact List.take_prefix 7 past
    have readDelay := of_decide_eq_true reading
    exact ⟨(value .delay).trans shown.1, _, e, here, readDelay,
      (reads _ e here readDelay).trans shown.2⟩
  | _ => cases reading

end Machine

end Chip8
