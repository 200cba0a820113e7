import Chip8.Proofs.Machine.Run
import Mathlib.Order.Bounds.Defs

/-!
# Waiting for a key

`key_wait`: from the clock that fetches the instruction to the first clock that
finds a key down, whatever a host does in between, nothing happens to the
program. `Waiting` is what every request keeps until then.
-/

namespace Chip8

theorem Keypad.lowest?_eq_some_iff {keypad : Keypad} :
    keypad.lowest? = some key ↔ IsLeast {k | keypad.get k = true} key := by
  rw [Keypad.lowest?, List.find?_eq_some_iff_getElem]
  constructor
  · rintro ⟨hdown, i, hi, rfl, hbefore⟩
    refine ⟨hdown, fun k hk => ?_⟩
    rw [Fin.le_def, List.getElem_finRange]
    refine Nat.le_of_not_lt fun hlt => ?_
    have hup := hbefore k hlt
    rw [List.getElem_finRange, Bool.not_eq_true'] at hup
    exact Bool.eq_false_iff.mp hup hk
  · rintro ⟨hdown, hleast⟩
    refine ⟨hdown, key.val, by simp, by simp, fun j hj => ?_⟩
    rw [List.getElem_finRange, Bool.not_eq_true']
    refine Bool.eq_false_iff.mpr fun hk => ?_
    exact absurd (hleast hk) (Nat.not_le.mpr hj)

/-- A clock, and what a host can do between clocks while a program runs. -/
def Call.HostEvent : Call → Prop
  | .clock | .fetch | .tick | .setKey .. | .loadRom _ => True
  | _ => False

def Call.Apart (key : Fin 16) : Call → Prop
  | .fetch | .tick | .loadRom _ => True
  | .setKey other _ => other ≠ .whole key.val
  | _ => False

namespace Machine

variable {m s fetched : Machine} {word : Word} {call : Call}

-- ---------------------------------------------------------------------------
-- A clock that executes the instruction
-- ---------------------------------------------------------------------------

theorem takeKey_up (h : ∀ key, m.keypad.get key = false) (x : Fin 16) :
    m.takeKey x = { m with status := .awaitingKey } := by
  unfold takeKey
  rw [(Keypad.lowest?_eq_none_iff m.keypad).mpr h]

theorem takeKey_down (h : IsLeast {k | m.keypad.get k = true} key) (x : Fin 16) :
    m.takeKey x = { m with
      registers := m.registers.set x (BitVec.ofNat 8 key)
      status := .running } := by
  unfold takeKey
  rw [Keypad.lowest?_eq_some_iff.mpr h]
  rfl

theorem clock_up (hf : m.fetch = .ok (fetched, word))
    (awaits : (Instruction.ofWord word).operation = .awaitKey)
    (up : ∀ key, fetched.keypad.get key = false) :
    m.clock = .ok { fetched with status := .awaitingKey } := by
  rw [clock_of_fetch hf, awaits, perform, takeKey_up up]

theorem clock_down (hf : m.fetch = .ok (fetched, word))
    (awaits : (Instruction.ofWord word).operation = .awaitKey)
    (down : IsLeast {k | fetched.keypad.get k = true} key) :
    m.clock = .ok { fetched with
      registers := fetched.registers.set (Instruction.ofWord word).x (BitVec.ofNat 8 key)
      status := .running } := by
  rw [clock_of_fetch hf, awaits, perform, takeKey_down down]

-- ---------------------------------------------------------------------------
-- Until a clock sees a key
-- ---------------------------------------------------------------------------

structure Unmoved (s m : Machine) : Prop where
  registers : m.registers = s.registers
  index : m.index = s.index
  stack : m.stack = s.stack
  display : m.display = s.display
  random : m.random = s.random

/-- The next clock executes the instruction `word` of `s`, for the first time or
once more. -/
structure Poised (s : Machine) (word : Word) (m : Machine) : Prop extends Unmoved s m where
  fetch : m.fetch = .ok ({ m with pc := s.pc + 2, held := word }, word)

structure Waiting (s : Machine) (word : Word) (m : Machine) : Prop extends Unmoved s m where
  status : m.status = .awaitingKey
  held : m.held = word
  pc : m.pc = s.pc + 2

theorem Waiting.fetch (h : Waiting s word m) : m.fetch = .ok (m, word) := by
  rw [fetch_waiting h.status, h.held]

theorem Waiting.poised (h : Waiting s word m) : Poised s word m where
  toUnmoved := h.toUnmoved
  fetch := by
    rw [h.fetch, ← h.pc, ← h.held]

theorem Poised.start (running : s.status = .running)
    (fetched : s.memory.word s.pc.toNat = .ok word) : Poised s word s where
  registers := rfl
  index := rfl
  stack := rfl
  display := rfl
  random := rfl
  fetch := fetch_word running fetched

theorem Poised.respond_clock (h : Poised s word m)
    (awaits : (Instruction.ofWord word).operation = .awaitKey)
    (up : ∀ key, m.keypad.get key = false) :
    Waiting s word (m.respond .clock).1 ∧ (m.respond .clock).2 = .ok .done := by
  rw [respond, settle_ok (clock_up h.fetch awaits up)]
  exact ⟨{ h.toUnmoved with status := rfl, held := rfl, pc := rfl }, rfl⟩

theorem Poised.respond_release (h : Poised s word m)
    (awaits : (Instruction.ofWord word).operation = .awaitKey)
    (down : IsLeast {k | m.keypad.get k = true} key) :
    m.respond .clock = ({ m with
      registers := s.registers.set (Instruction.ofWord word).x (BitVec.ofNat 8 key)
      status := .running
      pc := s.pc + 2
      held := word }, .ok .done) := by
  rw [respond, settle_ok (clock_down h.fetch awaits down), ← h.registers]

theorem Waiting.respond (h : Waiting s word m)
    (awaits : (Instruction.ofWord word).operation = .awaitKey) (host : call.HostEvent)
    (up : call = .clock → ∀ key, m.keypad.get key = false) :
    Waiting s word (m.respond call).1 := by
  cases call with
  | clock => exact (h.poised.respond_clock awaits (up rfl)).1
  | fetch =>
    rw [Machine.respond, h.fetch]
    exact h
  | tick => exact { h with }
  | setKey key pressed =>
    rw [Machine.respond]
    split
    · refine settle_keeps h fun after hk => ?_
      rw [setKey_eq hk]
      exact { h with }
    · exact h
  | loadRom bytes =>
    rw [Machine.respond]
    split
    · refine settle_keeps h fun after hl => ?_
      rw [loadRom_eq hl]
      exact { h with }
    · exact h
  | _ => cases host

theorem Poised.run {calls before rest : List Call} (h : Poised s word s)
    (awaits : (Instruction.ofWord word).operation = .awaitKey)
    (host : ∀ c ∈ calls, c.HostEvent) (run : .clock :: calls = before ++ call :: rest)
    (up : s.Throughout (fun m c => c = .clock → ∀ key, m.keypad.get key = false) before) :
    call = .clock ∧ before = [] ∨ call.HostEvent ∧ Waiting s word (s.respondAll before) := by
  cases before with
  | nil => exact .inl ⟨(List.cons.inj run).1.symm, rfl⟩
  | cons first before =>
    obtain ⟨rfl, rfl⟩ := List.cons.inj run
    refine .inr ⟨host call (by simp), ?_⟩
    have hbefore := Throughout.of_forall (P := fun _ c => c.HostEvent)
      (fun c hc _ => host c (List.mem_append_left _ hc)) (s.respond .clock).1
    refine (hbefore.and up.2).invariant (h.respond_clock awaits (up.1 rfl)).1 ?_
    rintro m call hw ⟨hc, hu⟩
    exact hw.respond awaits hc hu

-- ---------------------------------------------------------------------------
-- A key that no clock sees
-- ---------------------------------------------------------------------------

def withKey (m : Machine) (key : Fin 16) (pressed : Bool) : Machine :=
  { m with keypad := m.keypad.set key pressed }

theorem setKey_key (m : Machine) (key : Fin 16) (pressed : Bool) :
    m.setKey (.key key) pressed = .ok (m.withKey key pressed) := rfl

theorem fetch_withKey (m : Machine) (key : Fin 16) (pressed : Bool) :
    (m.withKey key pressed).fetch =
      m.fetch.map fun (after, word) => (after.withKey key pressed, word) := by
  rcases status_cases m with hs | hs
  · have hk : (m.withKey key pressed).status = .running := hs
    have hw : (m.withKey key pressed).memory.word (m.withKey key pressed).pc.toNat =
        m.memory.word m.pc.toNat := rfl
    rw [fetch_running hs, fetch_running hk, hw]
    cases m.memory.word m.pc.toNat with
    | error fault => rfl
    | ok word => rfl
  · have hk : (m.withKey key pressed).status = .awaitingKey := hs
    rw [fetch_waiting hs, fetch_waiting hk]
    rfl

theorem respond_withKey (apart : call.Apart key) (m : Machine) (pressed : Bool) :
    (m.withKey key pressed).respond call =
      ((m.respond call).1.withKey key pressed, (m.respond call).2) := by
  cases call with
  | fetch =>
    rw [respond, respond, fetch_withKey]
    cases m.fetch with
    | error fault => rfl
    | ok fetched => rfl
  | tick => rfl
  | loadRom bytes =>
    simp only [respond]
    split
    · unfold loadRom
      split
      · rfl
      · rfl
    · rfl
  | setKey other down =>
    simp only [respond]
    cases hk : other.keyName? with
    | none => rfl
    | some name =>
      cases name with
      | unknown shown => rfl
      | key k =>
        have hne : key ≠ k := fun he => apart (Datum.keyName?_eq_key_iff.mp (he ▸ hk))
        simp only [setKey, settle, withKey, Bank.set_comm m.keypad hne]
  | _ => cases apart

theorem respondAll_withKey (apart : ∀ call ∈ calls, call.Apart key) (m : Machine)
    (pressed : Bool) :
    (m.withKey key pressed).respondAll calls = (m.respondAll calls).withKey key pressed := by
  induction calls generalizing m with
  | nil => rfl
  | cons call rest ih =>
    rw [respondAll, respond_withKey (apart call List.mem_cons_self)]
    exact ih (fun c hc => apart c (List.mem_cons_of_mem _ hc)) _

theorem get_keypad_apart (apart : ∀ call ∈ calls, call.Apart key) (m : Machine) :
    (m.respondAll calls).keypad.get key = m.keypad.get key := by
  have hm : m.withKey key (m.keypad.get key) = m := by
    rw [withKey, Bank.set_get]
  have h := respondAll_withKey apart m (m.keypad.get key)
  rw [hm] at h
  exact (congrArg (fun after => after.keypad.get key) h).trans (Bank.get_set_self ..)

/-- A key that is pressed and let go again before the next clock leaves no
trace. -/
theorem press_release (apart : ∀ call ∈ calls, call.Apart key) (up : m.keypad.get key = false) :
    m.respondAll (.setKey (.whole key.val) true :: calls ++ [.setKey (.whole key.val) false]) =
      m.respondAll calls := by
  have hpress (m : Machine) (pressed : Bool) :
      (m.respond (.setKey (.whole key.val) pressed)).1 = m.withKey key pressed :=
    congrArg Prod.fst (m.respond_setKey_whole key pressed)
  have hup := get_keypad_apart apart m
  rw [List.cons_append, respondAll, respondAll_append, hpress, respondAll_withKey apart]
  rw [respondAll, respondAll, hpress, withKey, withKey, Bank.set_set, ← up, ← hup, Bank.set_get]

-- ---------------------------------------------------------------------------
-- The whole wait
-- ---------------------------------------------------------------------------

/-- `call` is a request of a run that starts with the clock at an `FX0A` word,
and no clock before it has seen a key. If it is not a clock that sees one, the
machine waits on; otherwise `X` gets the lowest key and the program goes on
after the word. -/
theorem key_wait {s : Machine} {x : Fin 16} {calls before rest : List Call} {call : Call}
    (running : s.status = .running)
    (fetched : s.memory.word s.pc.toNat = .ok (Instruction.toWord ⟨0xF, x, 0, 0xA⟩))
    (host : ∀ c ∈ calls, c.HostEvent) (run : .clock :: calls = before ++ call :: rest)
    (up : s.Throughout (fun m c => c = .clock → ∀ key, m.keypad.get key = false) before) :
    let word := Instruction.toWord ⟨0xF, x, 0, 0xA⟩
    let m := s.respondAll before
    let after := (m.respond call).1
    let answer := (m.respond call).2
    (s.pc + 2).toNat = s.pc.toNat + 2 ∧
      ((call = .clock → ∀ key, m.keypad.get key = false) →
        Waiting s word after ∧ (call = .clock → answer = .ok .done) ∧
          (call = .fetch → answer = .ok (.instruction ⟨0xF, x, 0, 0xA⟩))) ∧
      (∀ key, call = .clock → IsLeast {k | m.keypad.get k = true} key →
        answer = .ok .done ∧
          after = { m with
            registers := s.registers.set x (BitVec.ofNat 8 key)
            status := .running
            pc := s.pc + 2
            held := word } ∧
          after.fetch = (after.memory.word (s.pc.toNat + 2)).map fun next =>
            ({ after with pc := s.pc + 4, held := next }, next)) ∧
      (∀ key between, after.keypad.get key = false → (∀ c ∈ between, c.Apart key) →
        after.respondAll
            (.setKey (.whole key.val) true :: between ++ [.setKey (.whole key.val) false]) =
          after.respondAll between) := by
  intro word m after answer
  have hx : Instruction.ofWord word = ⟨0xF, x, 0, 0xA⟩ := Instruction.ofWord_toWord _
  have awaits : (Instruction.ofWord word).operation = .awaitKey := by rw [hx]; rfl
  have hpc : (s.pc + 2).toNat = s.pc.toNat + 2 := toNat_next fetched
  have hrun := (Poised.start running fetched).run awaits host run up
  have hm : Poised s word m := by
    rcases hrun with ⟨-, hb⟩ | ⟨-, hw⟩
    · simp only [m, hb]
      exact Poised.start running fetched
    · exact hw.poised
  refine ⟨hpc, fun hu => ⟨?_, ?_, ?_⟩, ?_, fun key between hup apart => press_release apart hup⟩
  · rcases hrun with ⟨rfl, -⟩ | ⟨hc, hw⟩
    · exact (hm.respond_clock awaits (hu rfl)).1
    · exact hw.respond awaits hc hu
  · rintro rfl
    exact (hm.respond_clock awaits (hu rfl)).2
  · rintro rfl
    obtain ⟨hc, -⟩ | ⟨-, hw⟩ := hrun
    · cases hc
    · have hf : m.respond .fetch = (m, .ok (.instruction (.ofWord word))) := by
        rw [respond, hw.fetch]
      rw [← hx]
      exact congrArg Prod.snd hf
  · rintro key rfl hk
    have hc := hm.respond_release awaits hk
    rw [hx] at hc
    have ha : after = _ := congrArg Prod.fst hc
    refine ⟨congrArg Prod.snd hc, ha, ?_⟩
    have hs : after.status = .running := by rw [ha]
    have hp : after.pc = s.pc + 2 := by rw [ha]
    have h4 : s.pc + 2 + 2 = s.pc + 4 := BitVec.add_assoc s.pc 2 2
    rw [fetch_running hs, hp, hpc, h4]
    rfl

def keyProgram : Machine :=
  (powerOn ⟨0, 0⟩).respondAll [.loadRom [0xF5, 0x0A]]

/-- The key is taken although the instruction has been overwritten. -/
theorem key_wait_overwritten :
    let before : List Call := [.clock, .tick, .loadRom [0, 0], .setKey (.whole 7) true]
    let after := keyProgram.respondAll (before ++ [.clock])
    after.registers.get 5 = 7 ∧ after.pc = 0x202 ∧ after.status = .running := by
  intro before after
  have fetched : keyProgram.memory.word keyProgram.pc.toNat =
      .ok (Instruction.toWord ⟨0xF, 5, 0, 0xA⟩) :=
    Memory.word_ok_iff.mpr ⟨by decide, by decide +kernel⟩
  have up : keyProgram.Throughout (fun m c => c = .clock → ∀ key, m.keypad.get key = false)
      before :=
    ⟨fun _ => by decide +kernel, nofun, nofun, nofun, trivial⟩
  have hdown : (keyProgram.respondAll before).keypad.get 7 = true := by decide +kernel
  have hleast : ∀ key, (keyProgram.respondAll before).keypad.get key = true → 7 ≤ key := by
    decide +kernel
  obtain ⟨-, -, hclock, -⟩ := @key_wait keyProgram 5 (before.tail ++ [.clock]) before [] .clock
    rfl fetched (by simp [before, Call.HostEvent]) rfl up
  have ha : after = _ := (hclock 7 rfl ⟨hdown, hleast⟩).2.1
  rw [ha]
  exact ⟨Bank.get_set_self .., rfl, rfl⟩

end Machine

end Chip8
