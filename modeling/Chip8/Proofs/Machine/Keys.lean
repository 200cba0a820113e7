import Chip8.Proofs.Machine.History
import Chip8.Proofs.Machine.WriteSet
import Chip8.Proofs.Text.Integer
import Mathlib.Data.List.Basic
import Mathlib.Data.List.Induction

/-!
# The keys are as the host said last

A key is down if the last request that decides over it, a reset among them, has
pressed it (`keys_last_told`). Instructions only look at the keys: a wait that takes
a key leaves it down. A value that names no key is refused, but not by a fault of the
machine where it is too long to be shown (`oversized_key`).
-/

namespace Chip8

def Call.Decides (key : Fin 16) : Call → Prop
  | .setKey given _ => given = .whole key.val
  | .reset _ => True
  | _ => False

def HeldDown (key : Fin 16) (calls : List Call) : Prop :=
  ∃ earlier later, calls = earlier ++ .setKey (.whole key.val) true :: later ∧
    ∀ call ∈ later, ¬ call.Decides key

theorem not_heldDown_nil (key : Fin 16) : ¬ HeldDown key [] := by
  rintro ⟨earlier, later, run, -⟩
  simp at run

theorem heldDown_append_iff {key : Fin 16} {calls : List Call} {call : Call} :
    HeldDown key (calls ++ [call]) ↔
      call = .setKey (.whole key.val) true ∨ ¬ call.Decides key ∧ HeldDown key calls := by
  constructor
  · rintro ⟨earlier, later, run, quiet⟩
    rcases List.eq_nil_or_concat later with rfl | ⟨before, last, rfl⟩
    · exact .inl (List.cons.inj (List.append_inj' run rfl).2).1
    · rw [List.concat_eq_append] at run quiet
      rw [← List.cons_append, ← List.append_assoc] at run
      obtain ⟨rfl, same⟩ := List.append_inj' run rfl
      obtain ⟨rfl, -⟩ := List.cons.inj same
      simp only [List.forall_mem_append, List.forall_mem_singleton] at quiet
      exact .inr ⟨quiet.2, earlier, before, rfl, quiet.1⟩
  · rintro (rfl | ⟨quiet, earlier, later, rfl, before⟩)
    · exact ⟨calls, [], rfl, nofun⟩
    · refine ⟨earlier, later ++ [call], by simp, ?_⟩
      simp only [List.forall_mem_append, List.forall_mem_singleton]
      exact ⟨before, quiet⟩

-- ---------------------------------------------------------------------------
-- What is given in place of a key
-- ---------------------------------------------------------------------------

namespace Datum

theorem key?_eq_none_iff {datum : Datum} :
    datum.key? = none ↔ ∀ key : Fin 16, datum ≠ .whole key.val := by
  simp only [Option.eq_none_iff_forall_ne_some, ne_eq, key?_eq_some_iff]

inductive Mentions (n : Int) : Datum → Prop
  | whole : Mentions n (.whole n)
  | item {item : Datum} {items : List Datum} :
      item ∈ items → Mentions n item → Mentions n (.list items)
  | field {name : String} {value : Datum} {fields : List (String × Datum)} :
      (name, value) ∈ fields → Mentions n value → Mentions n (.record fields)

def Oversized (datum : Datum) : Prop :=
  ∃ n, datum.Mentions n ∧ ¬ Integer.Short n

theorem oversized_whole_iff {n : Int} : (whole n).Oversized ↔ ¬ Integer.Short n :=
  ⟨fun ⟨_, .whole, long⟩ => long, fun long => ⟨n, .whole, long⟩⟩

theorem oversized_list_iff {items : List Datum} :
    (list items).Oversized ↔ ∃ item ∈ items, item.Oversized :=
  ⟨fun ⟨n, .item mem mentions, long⟩ => ⟨_, mem, n, mentions, long⟩,
    fun ⟨_, mem, n, mentions, long⟩ => ⟨n, .item mem mentions, long⟩⟩

theorem oversized_record_iff {fields : List (String × Datum)} :
    (record fields).Oversized ↔ ∃ field ∈ fields, field.2.Oversized :=
  ⟨fun ⟨n, .field mem mentions, long⟩ => ⟨_, mem, n, mentions, long⟩,
    fun ⟨_, mem, n, mentions, long⟩ => ⟨n, .field mem mentions, long⟩⟩

mutual
theorem shown?_eq_none_iff : (datum : Datum) → (datum.shown? = none ↔ datum.Oversized)
  | .null => iff_of_false (by simp [shown?]) fun ⟨_, mentions, _⟩ => nomatch mentions
  | .truth value =>
    iff_of_false (by cases value <;> simp [shown?]) fun ⟨_, mentions, _⟩ => nomatch mentions
  | .whole value => by simp [shown?, oversized_whole_iff]
  | .real value => iff_of_false (by simp [shown?]) fun ⟨_, mentions, _⟩ => nomatch mentions
  | .text value => iff_of_false (by simp [shown?]) fun ⟨_, mentions, _⟩ => nomatch mentions
  | .list items => by
    rw [oversized_list_iff, ← shownItems?_eq_none_iff items, shown?]
    cases shownItems? items with
    | none => simp
    | some shown => simp
  | .record fields => by
    rw [oversized_record_iff, ← shownFields?_eq_none_iff fields, shown?]
    cases shownFields? fields with
    | none => simp
    | some shown => simp
theorem shownItems?_eq_none_iff :
    (items : List Datum) → (shownItems? items = none ↔ ∃ item ∈ items, item.Oversized)
  | [] => by simp [shownItems?]
  | item :: rest => by
    rw [List.exists_mem_cons_iff, ← shown?_eq_none_iff item, ← shownItems?_eq_none_iff rest,
      shownItems?]
    cases item.shown? with
    | none => simp
    | some first => cases shownItems? rest <;> simp
theorem shownFields?_eq_none_iff : (fields : List (String × Datum)) →
    (shownFields? fields = none ↔ ∃ field ∈ fields, field.2.Oversized)
  | [] => by simp [shownFields?]
  | (name, value) :: rest => by
    rw [List.exists_mem_cons_iff, ← shown?_eq_none_iff value, ← shownFields?_eq_none_iff rest,
      shownFields?]
    cases value.shown? with
    | none => simp
    | some first => cases shownFields? rest <;> simp
end

end Datum

namespace Machine

variable {m after : Machine} {key : Fin 16} {call : Call}

-- ---------------------------------------------------------------------------
-- One request
-- ---------------------------------------------------------------------------

theorem tracked_keypad (keypad : Keypad) : Tracked fun m _ => m.keypad = keypad where
  fetch hm h := by
    rw [fetch_eq h]
    exact hm
  tick hm := hm
  execute e hm := (perform_changesOnly e.performed).keypad.trans hm

theorem keypad_load (m : Machine) (rom : List Byte) :
    (m.settle (m.loadRom rom)).1.keypad = m.keypad := by
  rcases settle_cases m (m.loadRom rom) with loaded | same
  · rw [loadRom_eq loaded]
  · rw [same]

theorem keypad_executes (executes : call.Executes) :
    (m.respond call).1.keypad = m.keypad :=
  @Tracked.respond m _ [] (tracked_keypad m.keypad) rfl call executes

theorem get_keypad_setKey (other : given ≠ .whole key.val) :
    (m.respond (.setKey given pressed)).1.keypad.get key = m.keypad.get key := by
  rw [respond]
  cases hk : given.keyName? with
  | none => rfl
  | some name =>
    cases name with
    | unknown shown => rfl
    | key named =>
      refine Bank.get_set_of_ne _ ?_ _
      rintro rfl
      exact other (Datum.keyName?_eq_key_iff.mp hk)

theorem get_keypad_respond (undecided : ¬ call.Decides key) :
    (m.respond call).1.keypad.get key = m.keypad.get key := by
  cases call with
  | loadRom bytes =>
    simp only [respond]
    split
    · rw [keypad_load]
    · rfl
  | loadFile name contents =>
    cases contents with
    | error cause => rfl
    | ok rom => rw [respond, keypad_load]
  | reset clear => exact absurd trivial undecided
  | fetch =>
    simp only [respond]
    split
    · next h => rw [fetch_eq h]
    · rfl
  | tick => rfl
  | setKey given pressed => exact get_keypad_setKey undecided
  | disassemble programOnly =>
    simp only [respond]
    split
    · rfl
    · rfl
  | execute | clock | frame => exact congrArg (Bank.get · key) (keypad_executes trivial)

theorem respond_setKey_unnamed {given : Datum} (unnamed : ∀ key : Fin 16, given ≠ .whole key.val)
    (m : Machine) (pressed : Bool) : m.respond (.setKey given pressed) =
      match given.shown? with
      | some shown => (m, .error (.fault (.badKey shown)))
      | none => (m, .error .tooManyDigits) := by
  rw [respond, Datum.keyName?, Datum.key?_eq_none_iff.mpr unnamed]
  cases given.shown? with
  | some shown => rfl
  | none => rfl

theorem get_keypad_decided (decides : call.Decides key) :
    (m.respond call).1.keypad.get key = true ↔ call = .setKey (.whole key.val) true := by
  cases call with
  | setKey given pressed =>
    obtain rfl := decides
    rw [respond_setKey_whole]
    simp
  | reset clear =>
    rw [respond]
    cases clear with
    | false => simp [reset, powerOn]
    | true => simp [reset, powerOn]
  | _ => cases decides

-- ---------------------------------------------------------------------------
-- A run
-- ---------------------------------------------------------------------------

theorem get_keypad_iff (seed : Random.Key) (key : Fin 16) (calls : List Call) :
    ((powerOn seed).respondAll calls).keypad.get key = true ↔ HeldDown key calls := by
  induction calls using List.reverseRecOn with
  | nil =>
    refine iff_of_false ?_ (not_heldDown_nil key)
    simp [respondAll, powerOn]
  | append_singleton calls call ih =>
    have run : (powerOn seed).respondAll (calls ++ [call]) =
        (((powerOn seed).respondAll calls).respond call).1 := respondAll_append _ calls [call]
    rw [run, heldDown_append_iff]
    by_cases decides : call.Decides key
    · simp [get_keypad_decided decides, decides]
    · have other : call ≠ .setKey (.whole key.val) true := by
        rintro rfl
        exact decides rfl
      simp [get_keypad_respond decides, ih, decides, other]

-- ---------------------------------------------------------------------------
-- Skipping by a key
-- ---------------------------------------------------------------------------

theorem keyOf_eq (named : (m.registers.get x).toNat % 16 = key.val) :
    keyOf (m.registers.get x) = key :=
  Fin.ext named

theorem execute_skipDown (m : Machine) (x : Fin 16) : m.execute (0xE09E + 0x100 * x : Nat) =
    .ok (m.skipIf (m.keypad.get (keyOf (m.registers.get x)))) := by
  have hi : Instruction.ofInt (0xE09E + 0x100 * x : Nat) = ⟨0xE, x, 9, 0xE⟩ :=
    Instruction.ofInt_behind 0xE x 9 0xE
  rw [execute, hi]
  rfl

theorem execute_skipUp (m : Machine) (x : Fin 16) : m.execute (0xE0A1 + 0x100 * x : Nat) =
    .ok (m.skipIf !m.keypad.get (keyOf (m.registers.get x))) := by
  have hi : Instruction.ofInt (0xE0A1 + 0x100 * x : Nat) = ⟨0xE, x, 0xA, 1⟩ :=
    Instruction.ofInt_behind 0xE x 0xA 1
  rw [execute, hi]
  rfl

/-- Whatever a machine has been asked for, a key is down if the host has pressed it
since it last let go of it or reset; what names no key is refused and changes nothing,
with a fault that shows it unless a number in it has more than 4300 digits.
The two skips agree with this for the key that the low digit of the register names,
and one of them skips where the other does not. -/
theorem keys_last_told (seed : Random.Key) (calls : List Call) :
    let m := (powerOn seed).respondAll calls
    (∀ key, m.keypad.get key = true ↔ HeldDown key calls) ∧
    (∀ (given : Datum) pressed, (∀ key : Fin 16, given ≠ .whole key.val) →
      ((∀ n, given.Mentions n → n.natAbs < 10 ^ 4300) → ∃ shown, given.shown? = some shown ∧
        m.respond (.setKey given pressed) = (m, .error (.fault (.badKey shown)))) ∧
      ((∃ n, given.Mentions n ∧ 10 ^ 4300 ≤ n.natAbs) →
        m.respond (.setKey given pressed) = (m, .error .tooManyDigits))) ∧
    (∀ (key : Fin 16) pressed, (m.respond (.setKey (.whole key.val) pressed)).2 = .ok .done) ∧
    ∀ x key : Fin 16, (m.registers.get x).toNat % 16 = key →
      (HeldDown key calls →
        m.execute (0xE09E + 0x100 * x : Nat) = .ok { m with pc := m.pc + 2 } ∧
          m.execute (0xE0A1 + 0x100 * x : Nat) = .ok m) ∧
      (¬ HeldDown key calls → m.execute (0xE09E + 0x100 * x : Nat) = .ok m ∧
        m.execute (0xE0A1 + 0x100 * x : Nat) = .ok { m with pc := m.pc + 2 }) := by
  intro m
  refine ⟨fun key => get_keypad_iff seed key calls, fun given pressed unnamed => ?_,
    fun key pressed => congrArg Prod.snd (m.respond_setKey_whole key pressed), ?_⟩
  · rw [respond_setKey_unnamed unnamed]
    refine ⟨fun small => ?_, fun ⟨n, mentions, large⟩ => ?_⟩
    · have fitting : ¬ given.Oversized := fun ⟨n, mentions, long⟩ =>
        long (Integer.short_iff.mpr (small n mentions))
      obtain ⟨shown, found⟩ :=
        Option.ne_none_iff_exists'.mp (mt given.shown?_eq_none_iff.mp fitting)
      exact ⟨shown, found, by rw [found]⟩
    · have oversized : given.Oversized :=
        ⟨n, mentions, fun short => Nat.not_lt.mpr large (Integer.short_iff.mp short)⟩
      rw [given.shown?_eq_none_iff.mpr oversized]
  intro x key named
  rw [execute_skipDown, execute_skipUp, keyOf_eq named, ← get_keypad_iff seed key calls]
  refine ⟨fun down => ?_, fun up => ?_⟩
  · rw [down]
    exact ⟨rfl, rfl⟩
  · rw [Bool.not_eq_true] at up
    rw [up]
    exact ⟨rfl, rfl⟩

theorem keys_last_told_taken :
    let calls : List Call := [.setKey (.whole 7) true, .execute (some 0xF30A),
      .setKey (.truth true) false, .loadRom [0, 0], .setKey (.whole 1) false]
    let m := (powerOn ⟨0, 0⟩).respondAll calls
    HeldDown 7 calls ∧ m.execute 0xE39E = .ok { m with pc := m.pc + 2 } ∧
      m.execute 0xE3A1 = .ok m ∧
      m.respond (.setKey (.list [.whole 7]) true) = (m, .error (.fault (.badKey "[7]"))) := by
  intro calls m
  have named : (m.registers.get 3).toNat % 16 = (7 : Fin 16) := by decide +kernel
  have down : HeldDown 7 calls := by
    have other : (1 : Int) ≠ (7 : Fin 16).val := by decide
    refine ⟨[], calls.tail, rfl, ?_⟩
    simp only [calls, List.tail_cons, List.forall_mem_cons, Call.Decides, Datum.whole.injEq,
      reduceCtorEq, other, not_false_eq_true, true_and]
    exact nofun
  obtain ⟨-, refuses, -, skips⟩ := keys_last_told ⟨0, 0⟩ calls
  have small (n : Int) : (Datum.list [.whole 7]).Mentions n → n.natAbs < 10 ^ 4300 := by
    rintro (_ | ⟨mem, mentions⟩)
    cases List.mem_singleton.mp mem
    cases mentions
    exact Integer.short_iff.mp (.of_lt (by decide : 0 < 1) (by decide) (by decide))
  obtain ⟨shown, found, refused⟩ := (refuses (.list [.whole 7]) true fun _ => nofun).1 small
  have text : (Datum.list [.whole 7]).shown? = some "[7]" := by decide +kernel
  obtain rfl := Option.some.inj (found.symm.trans text)
  obtain ⟨down, up⟩ := (skips 3 7 named).1 down
  exact ⟨by assumption, down, up, refused⟩

/-- A number outside of the keys, but refused without a fault and without a word in the
log: it is too long for the message that would complain of it. -/
theorem oversized_key :
    let m := powerOn ⟨0, 0⟩
    let given : Datum := .whole (10 ^ 4300)
    (∀ key : Fin 16, given ≠ .whole key.val) ∧
      m.respond (.setKey given true) = (m, .error .tooManyDigits) ∧
      ∀ cause, (m.respond (.setKey given true)).2 ≠ .error (.fault cause) := by
  intro m given
  have long := Integer.not_short_power
  have unnamed (key : Fin 16) : given ≠ .whole key.val := by
    rintro same
    rw [Datum.whole.inj same] at long
    exact long (.of_lt (by decide : 0 < 2) (Nat.lt_trans key.isLt (by decide)) (by decide))
  have refused : m.respond (.setKey given true) = (m, .error .tooManyDigits) := by
    rw [respond_setKey_unnamed unnamed,
      given.shown?_eq_none_iff.mpr (Datum.oversized_whole_iff.mpr long)]
  refine ⟨unnamed, refused, fun cause => ?_⟩
  rw [refused]
  exact nofun

end Machine

end Chip8
