import Chip8.Proofs.Listing
import Chip8.Proofs.Monitor.Moments
import Chip8.Proofs.Monitor.Stepping

/-!
# The trace is a listing

A tracing monitor tells of an instruction when it has been executed, and the machine
may be far from it by then: the program counter has moved and the word itself may be
overwritten. `trace_eq_listing`: the line is nevertheless the one that a listing
showed there before the clock.
-/

namespace Chip8

def Notice.isTrace : Notice → Bool
  | .executed .. => true
  | _ => false

def Moment.fetches (x : Moment) : Bool :=
  match x.call with
  | .clock => decide (x.machine.status = .running) && x.machine.clock.isOk
  | _ => false

def Machine.lineAtPc (m : Machine) : Except Listing.BadIndex (List String) :=
  Listing.range m.memory m.pc.toNat (m.pc.toNat + 2)

/-- The trace among the notices, each line as a listing of its own. -/
def traceOf (log : List Notice) : List (Except Listing.BadIndex (List String)) :=
  (log.filter Notice.isTrace).map fun notice => .ok [notice.message]

theorem Listing.wordAt_of_word {memory : Memory} {address : Nat} {fetched : Word}
    (h : memory.word address = .ok fetched) : wordAt memory address = fetched := by
  obtain ⟨hb, rfl⟩ := Memory.word_ok_iff.mp h
  have high : Fin.ofNat 4096 address = ⟨address, Nat.lt_of_succ_lt hb⟩ :=
    Fin.ext (Nat.mod_eq_of_lt (Nat.lt_of_succ_lt hb))
  have low : Fin.ofNat 4096 (address + 1) = ⟨address + 1, hb⟩ := Fin.ext (Nat.mod_eq_of_lt hb)
  rw [wordAt, high, low]

namespace Machine

variable {m after : Machine}

theorem lineAtPc_eq (h : m.memory.word m.pc.toNat = .ok word) :
    m.lineAtPc = .ok [Listing.line m.pc.toNat word.toNat] := by
  obtain ⟨hb, -⟩ := Memory.word_ok_iff.mp h
  have one : ((min ((m.pc.toNat : Int) + 2) 4096 - m.pc.toNat) / 2).toNat = 1 := by omega
  rw [lineAtPc, Listing.range, one, Listing.linesFrom_eq (by omega), ← Listing.wordAt_of_word h]
  rfl

end Machine

theorem traceOf_append (first second : List Notice) :
    traceOf (first ++ second) = traceOf first ++ traceOf second := by
  rw [traceOf, List.filter_append, List.map_append]
  rfl

theorem traceOf_waits (before : Status) (address : Int) (after : Machine) :
    traceOf (Monitor.waits before address after) = [] := by
  unfold Monitor.waits
  split
  · rfl
  · rfl
  · rfl

theorem traceOf_quiet (h : Monitor.Quiet log) : traceOf log = [] := by
  have none : log.filter Notice.isTrace = [] := by
    refine List.filter_eq_nil_iff.mpr fun notice hn => ?_
    cases notice with
    | executed address word => exact absurd trivial (h _ hn)
    | _ => exact Bool.false_ne_true
  rw [traceOf, none]
  rfl

namespace Moment

theorem trace_clock (m : Machine) : traceOf (log ⟨m, .clock⟩ true) =
    if fetches ⟨m, .clock⟩ then [m.lineAtPc] else [] := by
  cases hc : m.clock with
  | error fault =>
    have told : log ⟨m, .clock⟩ true = [.fault fault] :=
      congrArg Report.log (Monitor.clock_error hc)
    have fails : fetches ⟨m, .clock⟩ = false := by
      rw [fetches, hc, Except.isOk, Except.toBool, Bool.and_false]
    rw [told, fails]
    rfl
  | ok after =>
    obtain ⟨fetched, word, hf, hx⟩ := Machine.clock_ok hc
    rw [← Machine.execute_word] at hx
    have told : log ⟨m, .clock⟩ true =
        Monitor.notices ⟨m, true⟩ m.status (fetched.pc.toNat - 2) word.toNat after := by
      rw [log, Monitor.respond, Monitor.clock_of_fetch hf, hx]
      rfl
    rw [told, Monitor.notices, traceOf_append, traceOf_waits, List.append_nil]
    rcases Machine.fetch_cases hf with ⟨running, hw, rfl⟩ | ⟨waiting, rfl, rfl⟩
    · have counts : fetches ⟨m, .clock⟩ = true := by
        rw [fetches, hc, running]
        rfl
      rw [counts, Machine.lineAtPc_eq hw, Monitor.traced, running, Machine.toNat_next_sub hw]
      rfl
    · have held : fetches ⟨fetched, .clock⟩ = false := by
        rw [fetches, waiting]
        rfl
      rw [held, Monitor.traced, waiting]
      rfl

theorem trace_eq {x : Moment} (single : x.call.Single) (driven : x.call.Driven) :
    traceOf (x.log true) = if x.fetches then [x.machine.lineAtPc] else [] := by
  obtain ⟨m, call⟩ := x
  cases call with
  | clock => exact trace_clock m
  | execute => cases driven
  | frame => cases single
  | _ => exact traceOf_quiet (Monitor.quiet_respond id)

theorem trace_flatMap {moments : List Moment}
    (h : ∀ x ∈ moments, x.call.Single ∧ x.call.Driven) :
    traceOf (moments.flatMap (·.log true)) =
      (moments.filter fetches).map (·.machine.lineAtPc) := by
  induction moments with
  | nil => rfl
  | cons x rest ih =>
    obtain ⟨⟨single, driven⟩, later⟩ := List.forall_mem_cons.mp h
    rw [List.flatMap_cons, traceOf_append, trace_eq single driven, ih later, List.filter_cons]
    cases x.fetches with
    | true => rfl
    | false => rfl

end Moment

/-- As long as the host executes no words of its own, what is traced is what a listing
of the one word at the program counter shows before each clock that fetches it and
succeeds: once for each of them, in order, and nothing for any other clock. -/
theorem trace_eq_listing (m : Machine) {logger : Logger} (debug : logger.threshold = .debug)
    {calls : List Call} (driven : ∀ call ∈ calls, call.Driven) :
    traceOf (Monitor.heard ⟨m, true⟩ logger calls) =
      ((m.moments calls).filter Moment.fetches).map (·.machine.lineAtPc) := by
  rw [Monitor.heard_debug debug]
  refine Moment.trace_flatMap fun x hx => ?_
  obtain ⟨single, all⟩ := Machine.single_of_mem_moments hx
  exact ⟨single, all driven⟩

/-- The second instruction overwrites itself, the third begins a wait in which the
fourth clock goes on. -/
theorem trace_eq_listing_overwritten :
    let logger : Logger := ⟨"Test", .debug, false, false⟩
    let m := (Machine.powerOn ⟨0, 0⟩).respondAll [.loadRom [0xA2, 0x02, 0xF0, 0x55, 0xF1, 0x0A]]
    let calls : List Call := [.frame 4, .setKey (.whole 7) false]
    let clocked := ((m.moments calls).filter Moment.fetches).map (·.machine)
    traceOf (Monitor.heard ⟨m, true⟩ logger calls) = clocked.map Machine.lineAtPc ∧
      clocked.map (·.pc) = [0x200, 0x202, 0x204] ∧
      m.memory.get 0x202 = 0xF0 ∧ (m.respondAll calls).memory.get 0x202 = 0 := by
  intro logger m calls clocked
  have driven : ∀ call ∈ calls, call.Driven := by simp [calls, Call.Driven]
  have debug : logger.threshold = .debug := rfl
  refine ⟨?_, by decide +kernel⟩
  rw [trace_eq_listing m debug driven]
  simp only [clocked, List.map_map, Function.comp_def]

end Chip8
