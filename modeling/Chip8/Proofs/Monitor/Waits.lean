import Chip8.Proofs.Machine.Driven
import Chip8.Proofs.Monitor.Moments
import Mathlib.Data.List.Chain

/-!
# Waits in the log

A log tells when a machine begins to wait for a key and when a key has come; a reset
ends a wait as well. `waits_take_turns`: beginnings and ends take turns, and the log
alone tells whether the machine waits. Where the host executes no words of its own,
the addresses that are told of one wait are those of the waiting instruction and of
the next.
-/

namespace Chip8

inductive WaitEvent where
  | began (before : Machine) (address : Int)
  | resumed (pc : Int)
  | abandoned

namespace WaitEvent

def Ends : WaitEvent → Prop
  | .began .. => False
  | _ => True

def ofNotice? (before : Machine) : Notice → Option WaitEvent
  | .awaitingKey address => some (.began before address)
  | .resumed pc => some (.resumed pc)
  | _ => none

/-- Only a reset says nothing of the wait that it ends. -/
def message? : WaitEvent → Option String
  | .began _ address => some (Notice.awaitingKey address).message
  | .resumed pc => some (Notice.resumed pc).message
  | .abandoned => none

theorem eq_began {e : WaitEvent} (h : ¬ e.Ends) : ∃ before address, e = .began before address := by
  cases e with
  | began before address => exact ⟨before, address, rfl⟩
  | _ => exact absurd trivial h

end WaitEvent

def Notice.waitMessage? : Notice → Option String
  | .awaitingKey address => some (Notice.awaitingKey address).message
  | .resumed pc => some (Notice.resumed pc).message
  | _ => none

namespace Moment

def abandons (x : Moment) : List WaitEvent :=
  match x.call, x.machine.status with
  | .reset _, .awaitingKey => [.abandoned]
  | _, _ => []

def waitEvents (x : Moment) (tracing : Bool) : List WaitEvent :=
  x.abandons ++ (x.log tracing).filterMap (WaitEvent.ofNotice? x.machine)

end Moment

namespace Machine

def waitEvents (m : Machine) (tracing : Bool) (calls : List Call) : List WaitEvent :=
  (m.moments calls).flatMap (·.waitEvents tracing)

def waitChange (m after : Machine) (address : Int) : List WaitEvent :=
  match m.status, after.status with
  | .running, .awaitingKey => [.began m address]
  | .awaitingKey, .running => [.resumed after.pc.toNat]
  | _, _ => []

variable {m after : Machine}

theorem waitChange_waiting (waiting : m.status = .awaitingKey) (after : Machine)
    (first second : Int) : m.waitChange after first = m.waitChange after second := by
  unfold waitChange
  rw [waiting]
  cases after.status with
  | running => rfl
  | awaitingKey => rfl

theorem waitChange_self (m : Machine) (address : Int) : m.waitChange m address = [] := by
  unfold waitChange
  cases m.status with
  | running => rfl
  | awaitingKey => rfl

theorem idle_status (m : Machine) : Idle fun after =>
    after.status = m.status ∧ (m.status = .awaitingKey → after.pc = m.pc) where
  load hm h := by
    rw [loadRom_eq h]
    exact hm
  fetch hm h := by
    rcases fetch_cases h with ⟨running, -, rfl⟩ | ⟨-, rfl, -⟩
    · refine ⟨hm.1, fun waited => ?_⟩
      cases running.symm.trans (hm.1.trans waited)
    · exact hm
  setKey hm h := by
    rw [setKey_eq h]
    exact hm

theorem status_idle {call : Call} (idle : call.Idle) : (m.respond call).1.status = m.status :=
  ((idle_status m).respond ⟨rfl, fun _ => rfl⟩ idle).1

theorem pc_idle {call : Call} (waited : m.status = .awaitingKey) (idle : call.Idle) :
    (m.respond call).1.pc = m.pc :=
  ((idle_status m).respond ⟨rfl, fun _ => rfl⟩ idle).2 waited

end Machine

/-- What is new about the wait when a machine becomes another at one moment. -/
inductive Turn (m after : Machine) : List WaitEvent → Prop where
  | same (status : after.status = m.status) : Turn m after []
  | began (running : m.status = .running) (waits : after.status = .awaitingKey)
      (address : Int) : Turn m after [.began m address]
  | resumed (waited : m.status = .awaitingKey) (runs : after.status = .running) :
      Turn m after [.resumed after.pc.toNat]
  | abandoned (waited : m.status = .awaitingKey) (runs : after.status = .running) :
      Turn m after [.abandoned]

theorem Machine.turn_waitChange (m after : Machine) (address : Int) :
    Turn m after (m.waitChange after address) := by
  unfold waitChange
  rcases m.status_cases with hm | hm <;> rcases after.status_cases with ha | ha
  · rw [hm, ha]
    exact .same (ha.trans hm.symm)
  · rw [hm, ha]
    exact .began hm ha address
  · rw [hm, ha]
    exact .resumed hm ha
  · rw [hm, ha]
    exact .same (ha.trans hm.symm)

-- ---------------------------------------------------------------------------
-- One moment
-- ---------------------------------------------------------------------------

namespace Moment

variable {m : Machine} {tracing : Bool}

theorem waits_notices (m after : Machine) (tracing : Bool) (address word : Int) :
    (Monitor.notices ⟨m, tracing⟩ m.status address word after).filterMap
      (WaitEvent.ofNotice? m) = m.waitChange after address := by
  have traced : (Monitor.traced ⟨m, tracing⟩ m.status address word).filterMap
      (WaitEvent.ofNotice? m) = [] := by
    unfold Monitor.traced
    split
    · rfl
    · rfl
  rw [Monitor.notices, List.filterMap_append, traced, List.nil_append]
  unfold Monitor.waits Machine.waitChange
  cases m.status <;> cases after.status <;> rfl

theorem waits_settle {outcome : Except Fault Machine} {log : Machine → List Notice} {address : Int}
    (told : ∀ after, (log after).filterMap (WaitEvent.ofNotice? m) = m.waitChange after address) :
    ((Monitor.settle ⟨m, tracing⟩ outcome log).log).filterMap (WaitEvent.ofNotice? m) =
      m.waitChange (m.settle outcome).1 address := by
  cases outcome with
  | ok after => exact told after
  | error fault => exact (m.waitChange_self address).symm

theorem waitEvents_execute (m : Machine) (tracing : Bool) (word : Option Int) :
    waitEvents ⟨m, .execute word⟩ tracing =
      m.waitChange (m.respond (.execute word)).1 (m.pc.toNat - 2) :=
  waits_settle fun after => waits_notices m after tracing _ _

theorem waitEvents_clock (m : Machine) (tracing : Bool) :
    waitEvents ⟨m, .clock⟩ tracing = m.waitChange (m.respond .clock).1 m.pc.toNat := by
  have told : waitEvents ⟨m, .clock⟩ tracing =
      (Monitor.clock ⟨m, tracing⟩).log.filterMap (WaitEvent.ofNotice? m) := rfl
  rw [told, Monitor.clock]
  rcases m.status_cases with running | waiting
  · simp only [running]
    refine waits_settle fun after => ?_
    rw [← running]
    exact waits_notices m after tracing _ _
  · -- the address of the held word is passed on, but no wait can begin
    simp only [waiting]
    refine waits_settle fun after => ?_
    rw [m.waitChange_waiting waiting after _ (m.pc.toNat - 2), ← waiting]
    exact waits_notices m after tracing _ _

theorem waitEvents_quiet {x : Moment} (quiet : ¬ x.call.Executes) :
    x.waitEvents tracing = x.abandons := by
  have none : (x.log tracing).filterMap (WaitEvent.ofNotice? x.machine) = [] := by
    refine List.filterMap_eq_nil_iff.mpr fun notice hn => ?_
    have plain := Monitor.quiet_respond quiet notice hn
    cases notice with
    | awaitingKey | resumed => exact absurd trivial plain
    | _ => rfl
  rw [waitEvents, none, List.append_nil]

theorem turn_respond {call : Call} (single : call.Single) (m : Machine) (tracing : Bool) :
    Turn m (m.respond call).1 (waitEvents ⟨m, call⟩ tracing) := by
  cases call with
  | execute word =>
    rw [waitEvents_execute]
    exact m.turn_waitChange _ _
  | clock =>
    rw [waitEvents_clock]
    exact m.turn_waitChange _ _
  | frame => cases single
  | reset clear =>
    have runs : (m.respond (.reset clear)).1.status = .running := by cases clear <;> rfl
    rw [waitEvents_quiet id, abandons]
    rcases m.status_cases with hm | hm
    · rw [hm]
      exact .same (runs.trans hm.symm)
    · rw [hm]
      exact .abandoned hm runs
  | tick =>
    rw [waitEvents_quiet id]
    exact .same rfl
  | _ =>
    rw [waitEvents_quiet id]
    exact .same (Machine.status_idle (by trivial))

theorem messages_waitEvents (x : Moment) (tracing : Bool) :
    (x.waitEvents tracing).filterMap WaitEvent.message? =
      (x.log tracing).filterMap Notice.waitMessage? := by
  have silent : x.abandons.filterMap WaitEvent.message? = [] := by
    unfold abandons
    split
    · rfl
    · rfl
  rw [waitEvents, List.filterMap_append, silent, List.nil_append, List.filterMap_filterMap]
  refine List.filterMap_congr fun notice _ => ?_
  cases notice with
  | _ => rfl

end Moment

-- ---------------------------------------------------------------------------
-- Beginnings and ends
-- ---------------------------------------------------------------------------

/-- Beginnings and ends take turns, from a beginning on, and a machine with this
status waits as long as the last one has not ended. -/
structure Alternating (events : List WaitEvent) (status : Status) : Prop where
  turns : events.IsChain fun e next => e.Ends ↔ ¬ next.Ends
  first : ∀ e ∈ events.head?, ¬ e.Ends
  last : status = .awaitingKey ↔ ∃ e ∈ events.getLast?, ¬ e.Ends

namespace Alternating

variable {events : List WaitEvent} {status next : Status} {e : WaitEvent}

theorem nil : Alternating [] .running where
  turns := .nil
  first := nofun
  last := ⟨nofun, nofun⟩

theorem append (h : Alternating events status) (turn : status = .awaitingKey ↔ e.Ends)
    (after : next = .awaitingKey ↔ ¬ e.Ends) : Alternating (events ++ [e]) next where
  turns := by
    refine h.turns.append (.singleton e) fun last hlast e' he => ?_
    obtain rfl := Option.some.inj he
    have here : status = .awaitingKey ↔ ¬ last.Ends := by
      rw [h.last, Option.mem_def.mp hlast]
      simp
    rw [← turn, here, not_not]
  first := by
    cases events with
    | nil =>
      intro e' he
      obtain rfl := Option.some.inj he
      rw [← turn, h.last]
      simp
    | cons first rest => exact h.first
  last := by
    rw [after, List.getLast?_concat]
    simp

theorem turn (h : Alternating events m.status) (t : Turn m after new) :
    Alternating (events ++ new) after.status := by
  cases t with
  | same status =>
    rw [List.append_nil, status]
    exact h
  | began running waits address =>
    exact h.append (by simp [running, WaitEvent.Ends]) (by simp [waits, WaitEvent.Ends])
  | resumed waited runs =>
    exact h.append (by simp [waited, WaitEvent.Ends]) (by simp [runs, WaitEvent.Ends])
  | abandoned waited runs =>
    exact h.append (by simp [waited, WaitEvent.Ends]) (by simp [runs, WaitEvent.Ends])

theorem waiting_iff (h : Alternating events status) : status = .awaitingKey ↔
    ∃ past before a, events = past ++ [.began before a] := by
  rw [h.last]
  constructor
  · rintro ⟨e, he, begins⟩
    obtain ⟨before, a, rfl⟩ := e.eq_began begins
    obtain ⟨past, rfl⟩ := List.getLast?_eq_some_iff.mp he
    exact ⟨past, before, a, rfl⟩
  · rintro ⟨past, before, a, rfl⟩
    exact ⟨_, List.getLast?_concat, id⟩

theorem begins_before (h : Alternating events status)
    (here : events = earlier ++ e :: later) (ends : e.Ends) :
    ∃ past before a, earlier = past ++ [.began before a] := by
  subst here
  rcases List.eq_nil_or_concat earlier with rfl | ⟨past, last, rfl⟩
  · exact absurd ends (h.first e rfl)
  · have turns := h.turns
    rw [List.concat_eq_append, List.append_assoc, List.singleton_append] at turns
    have begins := (List.isChain_append_cons_cons.mp turns).2.1
    obtain ⟨before, a, rfl⟩ := last.eq_began fun hl => begins.mp hl ends
    exact ⟨past, before, a, List.concat_eq_append⟩

theorem ends_between (h : Alternating events status)
    (here : events = earlier ++ .began before a :: (between ++ .began before' b :: later))
    (ends : ∀ e ∈ between, e.Ends) : ∃ e, between = [e] := by
  subst here
  have turns := (List.isChain_append.mp h.turns).2.1
  match between with
  | [] => exact absurd (List.isChain_cons_cons.mp turns).1 (by simp [WaitEvent.Ends])
  | [e] => exact ⟨e, rfl⟩
  | e :: e' :: rest =>
    have next := (List.isChain_cons_cons.mp (List.isChain_cons_cons.mp turns).2).1
    exact absurd (ends e' (by simp)) (next.mp (ends e (by simp)))

end Alternating

-- ---------------------------------------------------------------------------
-- Without words of the host
-- ---------------------------------------------------------------------------

def WaitEvent.Matched : WaitEvent → WaitEvent → Prop
  | .began _ address, .resumed pc => pc = address + 2
  | _, _ => True

namespace Machine

variable {m after : Machine} {call : Call} {events : List WaitEvent} {e : WaitEvent}

theorem Regular.pc_waiting (hm : Regular m) (waited : m.status = .awaitingKey)
    (single : call.Single) (driven : call.Driven) :
    (m.respond call).1.pc = m.pc ∨ ∃ clear, call = .reset clear := by
  cases call with
  | clock =>
    refine .inl ?_
    rw [respond, settle_ok (hm.clock_waiting waited), takeKey_eq]
  | reset clear => exact .inr ⟨clear, rfl⟩
  | tick => exact .inl rfl
  | execute => cases driven
  | frame => cases single
  | _ => exact .inl (pc_idle waited (by trivial))

theorem begins_clock (running : m.status = .running)
    (waits : (m.respond .clock).1.status = .awaitingKey) :
    (∃ x, m.memory.word m.pc.toNat = .ok (Instruction.toWord ⟨0xF, x, 0, 0xA⟩)) ∧
      (m.respond .clock).1.pc.toNat = m.pc.toNat + 2 := by
  rcases settle_cases m m.clock with hc | hs
  · obtain ⟨fetched, word, hf, hx⟩ := clock_ok hc
    rcases fetch_cases hf with ⟨-, hw, rfl⟩ | ⟨waiting, -, -⟩
    · have awaits := awaitKey_of_begins hx running waits
      refine ⟨⟨(Instruction.ofWord word).x, ?_⟩, ?_⟩
      · rw [← Instruction.eq_of_awaitKey awaits, Instruction.toWord_ofWord]
        exact hw
      · rw [awaits] at hx
        have after := Except.ok.inj hx
        rw [respond, ← after, takeKey_eq]
        exact toNat_next hw
    · cases running.symm.trans waiting
  · have same : (m.respond .clock).1 = m := hs
    rw [same, running] at waits
    cases waits

theorem began_driven (running : m.status = .running)
    (waits : (m.respond call).1.status = .awaitingKey) (single : call.Single)
    (driven : call.Driven) : call = .clock := by
  cases call with
  | clock => rfl
  | reset clear => cases clear <;> cases waits
  | tick => cases running.symm.trans waits
  | execute => cases driven
  | frame => cases single
  | _ =>
    have same : m.status = _ := (status_idle (by trivial)).symm.trans waits
    cases running.symm.trans same

structure Timely (m : Machine) (events : List WaitEvent) : Prop where
  regular : m.Regular
  begun : ∀ before a, .began before a ∈ events → a = before.pc.toNat ∧
    ∃ x, before.memory.word before.pc.toNat = .ok (Instruction.toWord ⟨0xF, x, 0, 0xA⟩)
  waiting : m.status = .awaitingKey →
    ∃ before a, .began before a ∈ events.getLast? ∧ (m.pc.toNat : Int) = a + 2
  matched : events.IsChain WaitEvent.Matched

namespace Timely

theorem start (key : Random.Key) : Timely (powerOn key) [] where
  regular := .start key
  begun := nofun
  waiting := nofun
  matched := .nil

theorem begin (h : Timely m events) (regular : after.Regular)
    (fetched : ∃ x, m.memory.word m.pc.toNat = .ok (Instruction.toWord ⟨0xF, x, 0, 0xA⟩))
    (hpc : after.pc.toNat = m.pc.toNat + 2) :
    Timely after (events ++ [.began m m.pc.toNat]) where
  regular := regular
  begun before a hb := by
    rcases List.mem_append.mp hb with hb | hb
    · exact h.begun before a hb
    · cases List.mem_singleton.mp hb
      exact ⟨rfl, fetched⟩
  waiting _ := ⟨m, m.pc.toNat, List.getLast?_concat, by omega⟩
  matched := by
    refine h.matched.append (.singleton _) fun last _ e he => ?_
    obtain rfl := Option.some.inj he
    cases last with
    | _ => trivial

theorem finish (h : Timely m events) (regular : after.Regular) (runs : after.status = .running)
    (ends : e.Ends) (matched : ∀ last ∈ events.getLast?, last.Matched e) :
    Timely after (events ++ [e]) where
  regular := regular
  begun before a hb := by
    rcases List.mem_append.mp hb with hb | hb
    · exact h.begun before a hb
    · cases List.mem_singleton.mp hb
      cases ends
  waiting waits := by cases runs.symm.trans waits
  matched := by
    refine h.matched.append (.singleton e) fun last hlast e' he => ?_
    obtain rfl := Option.some.inj he
    exact matched last hlast

theorem respond (h : Timely m events) (single : call.Single) (driven : call.Driven)
    (tracing : Bool) :
    Timely (m.respond call).1 (events ++ Moment.waitEvents ⟨m, call⟩ tracing) := by
  have regular := Regular.driven.respond h.regular driven
  have turn := Moment.turn_respond single m tracing
  generalize hnew : Moment.waitEvents ⟨m, call⟩ tracing = new at turn
  cases turn with
  | same status =>
    rw [List.append_nil]
    refine ⟨regular, h.begun, fun waits => ?_, h.matched⟩
    have waited := status.symm.trans waits
    obtain ⟨before, a, last, hpc⟩ := h.waiting waited
    rcases h.regular.pc_waiting waited single driven with same | ⟨clear, rfl⟩
    · exact ⟨before, a, last, by rw [same, hpc]⟩
    · cases clear <;> cases waits
  | began running waits address =>
    obtain rfl := began_driven running waits single driven
    obtain ⟨fetched, hpc⟩ := begins_clock running waits
    rw [Moment.waitEvents_clock, waitChange, running, waits] at hnew
    rw [← hnew]
    exact h.begin regular fetched hpc
  | resumed waited runs =>
    obtain ⟨before, a, last, hpc⟩ := h.waiting waited
    refine h.finish regular runs trivial fun e he => ?_
    obtain rfl := Option.some.inj (last.symm.trans he)
    rcases h.regular.pc_waiting waited single driven with same | ⟨clear, rfl⟩
    · exact (congrArg (fun pc : Word => (pc.toNat : Int)) same).trans hpc
    · rw [Moment.waitEvents_quiet id, Moment.abandons, waited] at hnew
      cases hnew
  | abandoned waited runs =>
    refine h.finish regular runs trivial fun e _ => ?_
    cases e with
    | _ => trivial

end Timely

theorem Timely.run (key : Random.Key) (tracing : Bool) {calls : List Call}
    (driven : ∀ call ∈ calls, call.Driven) :
    Timely ((powerOn key).respondAll calls) ((powerOn key).waitEvents tracing calls) := by
  let I (m : Machine) (past : List Moment) : Prop :=
    (∀ x ∈ past, x.call.Driven) → Timely m (past.flatMap (Moment.waitEvents · tracing))
  have step {m past call} (single : Call.Single call) (h : I m past) :
      I (m.respond call).1 (past ++ [⟨m, call⟩]) := by
    intro all
    obtain ⟨earlier, now⟩ := List.forall_mem_append.mp all
    rw [List.flatMap_append, List.flatMap_singleton]
    exact (h earlier).respond single (now _ List.mem_cons_self) tracing
  have start : I (powerOn key) [] := fun _ => .start key
  exact moments_induction step start calls fun x hx => (single_of_mem_moments hx).2 driven

-- ---------------------------------------------------------------------------
-- The log of a run
-- ---------------------------------------------------------------------------

theorem waitEvents_alternate (key : Random.Key) (tracing : Bool) (calls : List Call) :
    Alternating ((powerOn key).waitEvents tracing calls) ((powerOn key).respondAll calls).status := by
  let I (m : Machine) (past : List Moment) : Prop :=
    Alternating (past.flatMap (Moment.waitEvents · tracing)) m.status
  have step {m past call} (single : Call.Single call) (h : I m past) :
      I (m.respond call).1 (past ++ [⟨m, call⟩]) := by
    simp only [I, List.flatMap_append, List.flatMap_singleton]
    exact h.turn (Moment.turn_respond single m tracing)
  have start : I (powerOn key) [] := .nil
  exact moments_induction step start calls

theorem messages_heard {logger : Logger} (debug : logger.threshold = .debug) (m : Machine)
    (tracing : Bool) (calls : List Call) :
    (m.waitEvents tracing calls).filterMap WaitEvent.message? =
      (Monitor.heard ⟨m, tracing⟩ logger calls).filterMap Notice.waitMessage? := by
  rw [Monitor.heard_debug debug, waitEvents, List.filterMap_flatMap, List.filterMap_flatMap]
  exact congrArg (List.flatMap · _) (funext fun x => x.messages_waitEvents tracing)

/-- The messages about waits in the log of a run from power-on are those of its wait
events. Between two beginnings there is one end, each end comes right after a
beginning, and the machine waits if and only if the last event is a beginning. If the
host executes no words of its own, a beginning tells of the instruction that waits, and
the key that ends this wait comes at the next address. -/
theorem waits_take_turns (key : Random.Key) (tracing : Bool) {logger : Logger}
    (debug : logger.threshold = .debug) (calls : List Call) :
    let m := (powerOn key).respondAll calls
    let events := (powerOn key).waitEvents tracing calls
    events.filterMap WaitEvent.message? =
        (Monitor.heard ⟨powerOn key, tracing⟩ logger calls).filterMap Notice.waitMessage? ∧
      (∀ earlier before a between before' b later,
        events = earlier ++ .began before a :: (between ++ .began before' b :: later) →
          (∀ e ∈ between, e.Ends) → ∃ e, between = [e]) ∧
      (∀ earlier e later, events = earlier ++ e :: later → e.Ends →
        ∃ past before a, earlier = past ++ [.began before a]) ∧
      (m.status = .awaitingKey ↔ ∃ past before a, events = past ++ [.began before a]) ∧
      ((∀ call ∈ calls, call.Driven) →
        (∀ before a, .began before a ∈ events → a = before.pc.toNat ∧
          ∃ x, before.memory.word before.pc.toNat = .ok (Instruction.toWord ⟨0xF, x, 0, 0xA⟩)) ∧
        ∀ earlier before a pc later,
          events = earlier ++ .began before a :: .resumed pc :: later → pc = a + 2) := by
  intro m events
  have turns : Alternating events m.status := waitEvents_alternate key tracing calls
  refine ⟨messages_heard debug _ tracing calls, fun _ _ _ _ _ _ _ => turns.ends_between,
    fun _ _ _ => turns.begins_before, turns.waiting_iff, fun driven => ?_⟩
  have timely : Timely m events := .run key tracing driven
  refine ⟨timely.begun, fun earlier before a pc later here => ?_⟩
  have matched := timely.matched
  rw [here] at matched
  exact (List.isChain_append_cons_cons.mp matched).2.1

/-- One wait ends with a key and the next with a reset; the third goes on. -/
theorem waits_take_turns_reset :
    let logger : Logger := ⟨"Test", .debug, false, false⟩
    let calls : List Call := [.loadRom [0xF1, 0x0A, 0xF2, 0x0A], .frame 2, .setKey (.whole 7) true,
      .clock, .setKey (.whole 7) false, .frame 3, .reset false, .fetch, .clock, .tick]
    let events := (powerOn ⟨0, 0⟩).waitEvents true calls
    (Monitor.heard ⟨powerOn ⟨0, 0⟩, true⟩ logger calls).filterMap Notice.waitMessage? =
        ["Awaiting key press at $0x0200", "Key press received, resuming at $0x0202",
          "Awaiting key press at $0x0202", "Awaiting key press at $0x0202"] ∧
      (∃ past before a, events = past ++ [.began before a]) ∧
      ∀ earlier before a pc later,
        events = earlier ++ .began before a :: .resumed pc :: later → pc = a + 2 := by
  intro logger calls events
  have driven : ∀ call ∈ calls, call.Driven := by simp [calls, Call.Driven]
  have debug : logger.threshold = .debug := rfl
  obtain ⟨messages, -, -, waits, addresses⟩ := waits_take_turns ⟨0, 0⟩ true debug calls
  have here : events.filterMap WaitEvent.message? =
        ["Awaiting key press at $0x0200", "Key press received, resuming at $0x0202",
          "Awaiting key press at $0x0202", "Awaiting key press at $0x0202"] ∧
      ((powerOn ⟨0, 0⟩).respondAll calls).status = .awaitingKey := by
    decide +kernel
  exact ⟨messages.symm.trans here.1, waits.mp here.2, (addresses driven).2⟩

end Machine

end Chip8
