import Chip8.Call
import Chip8.Proofs.Machine.Perform

/-!
# Runs

Each induction over a run is done here once. A property that every operation
keeps and that holds at power-on holds in every machine that can be reached
(`Preserved.reachable`). A property of one run that needs to know something of
its requests follows them with `Throughout.invariant`.
-/

namespace Chip8

namespace Call

def Executes : Call → Prop
  | .execute _ | .clock | .frame _ => True
  | _ => False

def Driven : Call → Prop
  | .execute _ => False
  | _ => True

def Idle : Call → Prop
  | .loadRom _ | .loadFile .. | .fetch | .setKey .. | .disassemble _ => True
  | _ => False

end Call

namespace Machine

variable {m after : Machine}

-- ---------------------------------------------------------------------------
-- One request
-- ---------------------------------------------------------------------------

theorem settle_ok (h : outcome = .ok after) : m.settle outcome = (after, .ok .done) := by
  rw [h]
  rfl

theorem settle_done {outcome : Except Fault Machine}
    (h : (m.settle outcome).2 = .ok .done) : outcome = .ok (m.settle outcome).1 := by
  cases outcome with
  | error fault => cases h
  | ok after => rfl

theorem settle_cases (m : Machine) (outcome : Except Fault Machine) :
    outcome = .ok (m.settle outcome).1 ∨ (m.settle outcome).1 = m := by
  cases outcome with
  | error fault => exact .inr rfl
  | ok after => exact .inl rfl

theorem settle_keeps {P : Machine → Prop} (hm : P m)
    (hok : ∀ after, outcome = .ok after → P after) : P (m.settle outcome).1 := by
  rcases settle_cases m outcome with ho | hs
  · exact hok _ ho
  · rwa [hs]

theorem status_cases (m : Machine) : m.status = .running ∨ m.status = .awaitingKey := by
  cases m.status with
  | running => exact .inl rfl
  | awaitingKey => exact .inr rfl

theorem fetch_running (h : m.status = .running) : m.fetch =
    (m.memory.word m.pc.toNat).map fun word => ({ m with pc := m.pc + 2, held := word }, word) := by
  unfold fetch
  rw [h]
  cases m.memory.word m.pc.toNat <;> rfl

theorem fetch_word (running : m.status = .running)
    (fetched : m.memory.word m.pc.toNat = .ok word) :
    m.fetch = .ok ({ m with pc := m.pc + 2, held := word }, word) := by
  rw [fetch_running running, fetched]
  rfl

/-- A word that could be fetched lies so far from the edge that the program
counter does not wrap. -/
theorem toNat_next (fetched : m.memory.word m.pc.toNat = .ok word) :
    (m.pc + 2).toNat = m.pc.toNat + 2 := by
  obtain ⟨hb, -⟩ := Memory.word_ok_iff.mp fetched
  have hlt : m.pc.toNat + 2 < 2 ^ 16 := by omega
  rw [BitVec.toNat_add]
  exact Nat.mod_eq_of_lt hlt

theorem toNat_next_sub (fetched : m.memory.word m.pc.toNat = .ok word) :
    ((m.pc + 2).toNat - 2 : Int) = m.pc.toNat := by
  rw [toNat_next fetched]
  omega

theorem fetch_waiting (h : m.status = .awaitingKey) : m.fetch = .ok (m, m.held) := by
  unfold fetch
  rw [h]

theorem fetch_cases (h : m.fetch = .ok (after, word)) :
    (m.status = .running ∧ m.memory.word m.pc.toNat = .ok word ∧
        after = { m with pc := m.pc + 2, held := word }) ∨
      m.status = .awaitingKey ∧ after = m ∧ word = m.held := by
  rcases status_cases m with running | waiting
  · rw [fetch_running running] at h
    cases hw : m.memory.word m.pc.toNat with
    | error fault => rw [hw] at h; cases h
    | ok word =>
      rw [hw] at h
      cases h
      exact .inl ⟨running, rfl, rfl⟩
  · rw [fetch_waiting waiting] at h
    cases h
    exact .inr ⟨waiting, rfl, rfl⟩

theorem fetch_eq (h : m.fetch = .ok (after, word)) :
    after = { m with pc := after.pc, held := after.held } := by
  rcases fetch_cases h with ⟨-, -, rfl⟩ | ⟨-, rfl, -⟩
  · rfl
  · rfl

theorem held_fetched (h : m.fetch = .ok (after, word)) : after.held = word := by
  rcases fetch_cases h with ⟨-, -, rfl⟩ | ⟨-, rfl, rfl⟩
  · rfl
  · rfl

theorem loadRom_eq (h : m.loadRom rom = .ok after) :
    after = { m with memory := after.memory, romSize := after.romSize } := by
  unfold loadRom at h
  split at h
  · cases h; rfl
  · cases h

theorem reset_false (m : Machine) : m.reset false =
    { powerOn m.random with memory := m.memory, romSize := m.romSize } :=
  if_neg Bool.false_ne_true

theorem setKey_eq (h : m.setKey name pressed = .ok after) :
    after = { m with keypad := after.keypad } := by
  unfold setKey at h
  split at h
  · cases h; rfl
  · cases h

theorem respond_setKey_whole (m : Machine) (key : Fin 16) (pressed : Bool) :
    m.respond (.setKey (.whole key.val) pressed) =
      ({ m with keypad := m.keypad.set key pressed }, .ok .done) := by
  rw [respond, Datum.keyName?_eq_key_iff.mpr rfl]
  rfl

def nextOperation (m : Machine) : Except Fault Operation :=
  m.fetch.map fun (_, word) => (Instruction.ofWord word).operation

theorem nextOperation_of_fetch (h : m.fetch = .ok (fetched, word)) :
    m.nextOperation = .ok (Instruction.ofWord word).operation := by
  rw [nextOperation, h]
  rfl

theorem execute_word (m : Machine) (word : Word) :
    m.execute word.toNat = m.perform (.ofWord word) (Instruction.ofWord word).operation := by
  unfold execute
  rw [Instruction.ofInt_toNat]

theorem clock_of_fetch (h : m.fetch = .ok (fetched, word)) :
    m.clock = fetched.perform (.ofWord word) (Instruction.ofWord word).operation := by
  unfold clock
  rw [h]
  exact execute_word fetched word

theorem clock_of_fetch_error (h : m.fetch = .error fault) : m.clock = .error fault := by
  rw [clock, h]
  rfl

theorem clock_ok (h : m.clock = .ok after) : ∃ fetched word, m.fetch = .ok (fetched, word) ∧
    fetched.perform (.ofWord word) (Instruction.ofWord word).operation = .ok after := by
  obtain ⟨⟨fetched, word⟩, hf, hx⟩ := bind_ok_iff.mp h
  exact ⟨fetched, word, hf, execute_word fetched word ▸ hx⟩

theorem respond_frame (m : Machine) (count : Int) :
    (m.respond (.frame count)).1 = (m.tick.clocks count.toNat).1 := by
  rw [respond]
  split
  · next h => rw [h]
  · next h => rw [h]

-- ---------------------------------------------------------------------------
-- Machines that can be reached
-- ---------------------------------------------------------------------------

def Reachable (m : Machine) : Prop :=
  ∃ key calls, m = (powerOn key).respondAll calls

/-- A property that is only broken by instructions, ticks and resets, if at all. -/
structure Idle (P : Machine → Prop) : Prop where
  load {m after : Machine} {rom : List Byte} : P m → m.loadRom rom = .ok after → P after
  fetch {m after : Machine} {word : Word} : P m → m.fetch = .ok (after, word) → P after
  setKey {m after : Machine} {name : KeyName} {pressed : Bool} :
    P m → m.setKey name pressed = .ok after → P after

/-- A property that is only broken by instructions, if at all. -/
structure Kept (P : Machine → Prop) : Prop extends Idle P where
  reset {m : Machine} {clear : Bool} : P m → P (m.reset clear)
  tick {m : Machine} : P m → P m.tick

/-- A property that only words from outside the program break, if any. -/
structure Driven (P : Machine → Prop) : Prop extends Kept P where
  clock {m after : Machine} : P m → m.clock = .ok after → P after

/-- A property that no operation breaks. -/
structure Preserved (P : Machine → Prop) : Prop extends Kept P where
  execute {m after : Machine} {word : Int} : P m → m.execute word = .ok after → P after

variable {P : Machine → Prop} {call : Call}

theorem Idle.respond (h : Idle P) (hm : P m) (idle : call.Idle) : P (m.respond call).1 := by
  cases call with
  | loadRom bytes =>
    simp only [Machine.respond]
    split
    · exact settle_keeps hm fun _ hl => h.load hm hl
    · exact hm
  | loadFile name contents =>
    cases contents with
    | error cause => exact hm
    | ok rom => exact settle_keeps hm fun _ hl => h.load hm hl
  | fetch =>
    simp only [Machine.respond]
    split
    · next hf => exact h.fetch hm hf
    · exact hm
  | setKey key pressed =>
    simp only [Machine.respond]
    split
    · exact settle_keeps hm fun _ hk => h.setKey hm hk
    · exact hm
  | disassemble programOnly =>
    simp only [Machine.respond]
    split
    · exact hm
    · exact hm
  | _ => cases idle

theorem Kept.respond (h : Kept P) (hm : P m) (quiet : ¬ call.Executes) :
    P (m.respond call).1 := by
  cases call with
  | reset clear => exact h.reset hm
  | tick => exact h.tick hm
  | execute | clock | frame => exact absurd trivial quiet
  | _ => exact h.toIdle.respond hm trivial

namespace Driven

theorem clocks (h : Driven P) (hm : P m) (n : Nat) : P (m.clocks n).1 := by
  induction n generalizing m with
  | zero => exact hm
  | succ n ih =>
    unfold Machine.clocks
    cases hc : m.clock with
    | error fault => exact hm
    | ok after => exact ih (h.clock hm hc)

theorem respond (h : Driven P) (hm : P m) (driven : call.Driven) : P (m.respond call).1 := by
  cases call with
  | execute word => cases driven
  | clock => exact settle_keeps hm fun _ hc => h.clock hm hc
  | frame count =>
    rw [respond_frame]
    exact h.clocks (h.tick hm) count.toNat
  | _ => exact h.toKept.respond hm nofun

theorem respondAll (h : Driven P) (hm : P m) {calls : List Call}
    (driven : ∀ call ∈ calls, call.Driven) : P (m.respondAll calls) := by
  induction calls generalizing m with
  | nil => exact hm
  | cons call rest ih =>
    obtain ⟨first, later⟩ := List.forall_mem_cons.mp driven
    exact ih (h.respond hm first) later

end Driven

namespace Preserved

theorem driven (h : Preserved P) : Driven P where
  toKept := h.toKept
  clock hm hc := by
    obtain ⟨⟨fetched, word⟩, hf, hx⟩ := bind_ok_iff.mp hc
    exact h.execute (h.fetch hm hf) hx

theorem respond (h : Preserved P) (hm : P m) (call : Call) : P (m.respond call).1 := by
  cases call with
  | execute word => exact settle_keeps hm fun _ hx => h.execute hm hx
  | _ => exact h.driven.respond hm trivial

theorem respondAll (h : Preserved P) (hm : P m) (calls : List Call) : P (m.respondAll calls) := by
  induction calls generalizing m with
  | nil => exact hm
  | cons call rest ih => exact ih (h.respond hm call)

theorem reachable (h : Preserved P) (start : ∀ key, P (powerOn key)) (hr : m.Reachable) : P m := by
  obtain ⟨key, calls, rfl⟩ := hr
  exact h.respondAll (start key) calls

end Preserved

-- ---------------------------------------------------------------------------
-- One run
-- ---------------------------------------------------------------------------

theorem respondAll_append (m : Machine) (first second : List Call) :
    m.respondAll (first ++ second) = (m.respondAll first).respondAll second := by
  induction first generalizing m with
  | nil => rfl
  | cons call rest ih => exact ih _

def executeAll (m : Machine) (words : List Int) : Except Fault Machine :=
  words.foldlM execute m

theorem executeAll_cons (h : m.execute word = .ok after) (rest : List Int) :
    m.executeAll (word :: rest) = after.executeAll rest := by
  rw [executeAll, List.foldlM_cons, h]
  rfl

theorem Reachable.respondAll (h : m.Reachable) (calls : List Call) :
    (m.respondAll calls).Reachable := by
  obtain ⟨key, first, rfl⟩ := h
  exact ⟨key, first ++ calls, (respondAll_append _ _ _).symm⟩

def Throughout (P : Machine → Call → Prop) (m : Machine) : List Call → Prop
  | [] => True
  | call :: rest => P m call ∧ (m.respond call).1.Throughout P rest

def Succeeding (m : Machine) (call : Call) : Prop :=
  call = .clock → (m.respond call).2 = .ok .done

instance (m : Machine) : (call : Call) → Decidable (m.Succeeding call)
  | .clock => match h : m.clock with
    | .ok _ => .isTrue fun _ => congrArg Prod.snd (settle_ok h)
    | .error _ => .isFalse fun hd => nomatch h.symm.trans (settle_done (hd rfl))
  | .loadRom .. | .loadFile .. | .reset .. | .fetch | .execute .. | .tick | .frame .. | .setKey ..
  | .disassemble .. => .isTrue nofun

namespace Throughout

instance decidable (P : Machine → Call → Prop) [∀ m call, Decidable (P m call)] (m : Machine) :
    (calls : List Call) → Decidable (m.Throughout P calls)
  | [] => .isTrue trivial
  | call :: rest =>
    have := decidable P (m.respond call).1 rest
    inferInstanceAs (Decidable (P m call ∧ (m.respond call).1.Throughout P rest))

variable {P Q : Machine → Call → Prop} {calls : List Call}

theorem of_forall (h : ∀ call ∈ calls, ∀ m, P m call) (m : Machine) : m.Throughout P calls := by
  induction calls generalizing m with
  | nil => trivial
  | cons call rest ih =>
    exact ⟨h call List.mem_cons_self m, ih (fun c hc => h c (List.mem_cons_of_mem _ hc)) _⟩

theorem and (hp : m.Throughout P calls) (hq : m.Throughout Q calls) :
    m.Throughout (fun m call => P m call ∧ Q m call) calls := by
  induction calls generalizing m with
  | nil => trivial
  | cons call rest ih => exact ⟨⟨hp.1, hq.1⟩, ih hp.2 hq.2⟩

theorem append_iff {first second : List Call} : m.Throughout P (first ++ second) ↔
    m.Throughout P first ∧ (m.respondAll first).Throughout P second := by
  induction first generalizing m with
  | nil => exact ⟨fun h => ⟨trivial, h⟩, fun h => h.2⟩
  | cons call rest ih =>
    simp only [List.cons_append, Throughout, respondAll, ih, and_assoc]

theorem invariant {I : Machine → Prop} (h : m.Throughout P calls) (start : I m)
    (step : ∀ {m call}, I m → P m call → I (m.respond call).1) : I (m.respondAll calls) := by
  induction calls generalizing m with
  | nil => exact start
  | cons call rest ih => exact ih h.2 (step start h.1)

end Throughout

end Machine

end Chip8
