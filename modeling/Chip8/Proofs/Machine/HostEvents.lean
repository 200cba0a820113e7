import Chip8.Proofs.Machine.Fault
import Chip8.Proofs.Machine.KeyWait
import Chip8.Proofs.Machine.ReadSet

/-!
# Host events and the clock

Timers are counted down and keys go up and down while a program runs. An
instruction that has nothing to do with timers does not notice on which side of
it a tick falls, and likewise with keys (`host_commutes`): the operations that
are named there are all through which a program can see the host's timing.
-/

namespace Chip8

def Operation.UsesTimers (op : Operation) : Prop :=
  op = .readDelay ∨ op = .setDelay ∨ op = .setSound

theorem map_congr_ok {x : Except ε α} {f g : α → β} (h : ∀ a, x = .ok a → f a = g a) :
    x.map f = x.map g := by
  cases x with
  | error => rfl
  | ok a => exact congrArg Except.ok (h a rfl)

namespace Machine

variable {m after fetched : Machine} {word : Word} {count : Byte → Byte} {keys : Keypad → Keypad}

def disturb (m : Machine) (count : Byte → Byte) (keys : Keypad → Keypad) : Machine :=
  { m with delay := count m.delay, sound := count m.sound, keypad := keys m.keypad }

theorem tick_eq_disturb (m : Machine) : m.tick = m.disturb countDown id := rfl

theorem withKey_eq_disturb (m : Machine) {key : Fin 16} {pressed : Bool} :
    m.withKey key pressed = m.disturb id (·.set key pressed) := rfl

theorem sameProgress_disturb : SameProgress m (m.disturb count keys) := {}

theorem counterpart_disturb {i : Instruction} {op : Operation} (keys : Keypad → Keypad)
    (only : ChangesOnly i op m after) (timers : op.UsesTimers → count = id) :
    (m.disturb count keys).counterpart i op after = after.disturb count keys := by
  have delay : (if op = .setDelay then after.delay else count m.delay) = count after.delay := by
    by_cases sets : op = .setDelay
    · rw [if_pos sets, timers (.inr (.inl sets))]
      rfl
    · rw [if_neg sets, only.delay sets]
  have sound : (if op = .setSound then after.sound else count m.sound) = count after.sound := by
    by_cases sets : op = .setSound
    · rw [if_pos sets, timers (.inr (.inr sets))]
      rfl
    · rw [if_neg sets, only.sound sets]
  simp only [counterpart, disturb, delay, sound, ← only.keypad, ← only.romSize,
    Bank.splice_of_outside only.memory]

theorem clock_disturb
    (timers : ∀ op, m.nextOperation = .ok op → op.UsesTimers → count = id)
    (pad : ∀ op, m.nextOperation = .ok op → op.ReadsKeys → keys = id) :
    (m.disturb count keys).clock = m.clock.map (·.disturb count keys) := by
  cases hf : m.fetch with
  | error fault =>
    have hn : (m.disturb count keys).fetch = .error fault := by
      rw [sameProgress_disturb.fetch rfl, hf]
      rfl
    rw [clock_of_fetch_error hf, clock_of_fetch_error hn]
    rfl
  | ok fetch =>
    obtain ⟨fetched, word⟩ := fetch
    have next := nextOperation_of_fetch hf
    have alike : ReadsAlike (.ofWord word) (Instruction.ofWord word).operation m
        (m.disturb count keys) := {
      toSameProgress := sameProgress_disturb
      keypad := fun reads => by rw [disturb, pad _ next reads]; rfl
      delay := fun reads => by rw [disturb, timers _ next (.inl reads)]; rfl
      memory := fun _ _ => rfl }
    rw [clock_counterpart (n := m.disturb count keys) hf rfl alike]
    refine map_congr_ok fun after hm => ?_
    have only := perform_changesOnly (clock_of_fetch hf ▸ hm)
    rw [fetch_eq hf] at only
    -- what a fetch moves makes no difference to the counterpart
    have both := counterpart_disturb keys only (timers _ next)
    exact both

def Commutes (m : Machine) (event : Machine → Except Fault Machine) : Prop :=
  event m >>= clock = m.clock >>= event

theorem commutes_disturb {event : Machine → Except Fault Machine}
    (disturbs : ∀ m, event m = .ok (m.disturb count keys))
    (timers : ∀ op, m.nextOperation = .ok op → op.UsesTimers → count = id)
    (pad : ∀ op, m.nextOperation = .ok op → op.ReadsKeys → keys = id) : m.Commutes event := by
  rw [Commutes, disturbs, funext disturbs]
  refine (clock_disturb timers pad).trans ?_
  cases m.clock with
  | error fault => rfl
  | ok after => rfl

theorem commutes_tick (apart : ∀ op, m.nextOperation = .ok op → ¬ op.UsesTimers) :
    m.Commutes fun m => .ok m.tick :=
  commutes_disturb (fun m => congrArg Except.ok m.tick_eq_disturb)
    (fun op next uses => absurd uses (apart op next)) (fun _ _ _ => rfl)

theorem commutes_setKey (apart : ∀ op, m.nextOperation = .ok op → ¬ op.ReadsKeys)
    (key : Fin 16) (pressed : Bool) : m.Commutes fun m => m.setKey (.key key) pressed :=
  commutes_disturb
    (fun m => (m.setKey_key key pressed).trans (congrArg Except.ok m.withKey_eq_disturb))
    (fun _ _ _ => rfl) (fun op next reads => absurd reads (apart op next))

/-- A tick or a key may come before or after a clock, as long as the instruction that
the clock executes does not use the timers, or does not read the keys. A clock that
finds no word to fetch does neither, and nothing mends it. -/
theorem host_commutes (m : Machine) :
    ((∀ op, m.nextOperation = .ok op → ¬ op.UsesTimers) → m.Commutes fun m => .ok m.tick) ∧
    ((∀ op, m.nextOperation = .ok op → ¬ op.ReadsKeys) → ∀ (key : Fin 16) pressed,
      m.Commutes fun m => m.setKey (.key key) pressed) ∧
    (m.status = .running → 4094 < m.pc.toNat →
      m.clock = .error (.outOfRange m.pc.toNat 2) ∧ (m.Commutes fun m => .ok m.tick) ∧
        ∀ (key : Fin 16) pressed, m.Commutes fun m => m.setKey (.key key) pressed) := by
  refine ⟨commutes_tick, commutes_setKey, fun running past => ?_⟩
  have unfetched := (fetch_past_iff running).mpr past
  have nothing (op : Operation) : m.nextOperation ≠ .ok op := by
    rw [nextOperation, unfetched]
    rintro ⟨⟩
  exact ⟨clock_of_fetch_error unfetched, commutes_tick fun op next => absurd next (nothing op),
    commutes_setKey fun op next => absurd next (nothing op)⟩

theorem host_commutes_each :
    (keyProgram.Commutes fun m => .ok m.tick) ∧
      (silencer.Commutes fun m => m.setKey (.key 5) true) ∧
      ({ powerOn ⟨0, 0⟩ with pc := 0xFFF } : Machine).clock = .error (.outOfRange 0xFFF 2) := by
  have waits : keyProgram.nextOperation = .ok .awaitKey := by
    have here : keyProgram.status = .running ∧
        keyProgram.memory.word keyProgram.pc.toNat = .ok 0xF50A := by
      decide +kernel
    exact nextOperation_of_fetch (fetch_word here.1 here.2)
  refine ⟨(host_commutes keyProgram).1 ?_, (host_commutes silencer).2.1 ?_ 5 true,
    ((host_commutes _).2.2 rfl (by decide)).1⟩
  · intro op next
    cases waits.symm.trans next
    simp [Operation.UsesTimers]
  · intro op next
    cases nextOperation_silencer.symm.trans next
    simp [Operation.ReadsKeys]

end Machine

end Chip8
