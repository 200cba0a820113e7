import Chip8.Proofs.CallStack.Frames
import Chip8.Proofs.Machine.Fault
import Chip8.Proofs.Machine.Subroutine

/-!
# The stack as a bounded list

A stack answers every run of pushes and pops as a list would that holds fifteen
addresses at most and gives back the newest (`refines_list`). The list names its
addresses from the newest on, the slots from the oldest on, and the slots that are
left over hold zero.
-/

namespace Chip8.CallStack

inductive Access where
  | push (address : Word) (pc : Int)
  | pop (pc : Int)

/-- Only a pop has an address to give back. -/
abbrev Reply := Except Fault (Option Word)

def access (stack : CallStack) : Access → CallStack × Reply
  | .push address pc =>
    match stack.push address pc with
    | .ok after => (after, .ok none)
    | .error fault => (stack, .error fault)
  | .pop pc =>
    match stack.pop pc with
    | .ok (address, after) => (after, .ok (some address))
    | .error fault => (stack, .error fault)

/-- The same of a list with the newest address first. Addresses count modulo 4096. -/
def onList (addresses : List Word) : Access → List Word × Reply
  | .push address pc =>
    if addresses.length = 15 then (addresses, .error (.stackOverflow pc 15))
    else (BitVec.ofNat 16 (address.toNat % 4096) :: addresses, .ok none)
  | .pop pc =>
    match addresses with
    | [] => ([], .error (.stackUnderflow pc))
    | newest :: older => (older, .ok (some newest))

def accessAll (respond : σ → Access → σ × Reply) (state : σ) : List Access → σ × List Reply
  | [] => (state, [])
  | access :: rest =>
    let first := respond state access
    let later := accessAll respond first.1 rest
    (later.1, first.2 :: later.2)

structure Represents (stack : CallStack) (addresses : List Word) : Prop where
  clean : stack.Clean
  frames : stack.frames = addresses.reverse
  bounded : addresses.length ≤ 15

variable {stack : CallStack} {addresses : List Word}

theorem masked_eq (address : Word) :
    address &&& 0xFFF = BitVec.ofNat 16 (address.toNat % 4096) := by
  have small : address.toNat % 4096 < 2 ^ 16 := by omega
  refine BitVec.eq_of_toNat_eq ((Machine.toNat_masked address).trans ?_)
  rw [BitVec.toNat_ofNat, Nat.mod_eq_of_lt small]

theorem Clean.toList_slots (hc : stack.Clean) :
    stack.slots.toList = stack.frames ++ List.replicate (16 - stack.depth) 0 := by
  refine List.ext_getElem ?_ fun i hi _ => ?_
  · rw [Bank.length_toList, List.length_append, length_frames, List.length_replicate]
    omega
  · have hlt : i < 16 := by simpa using hi
    rw [Bank.getElem_toList]
    by_cases hb : i < stack.frames.length
    · rw [List.getElem_append_left hb]
      exact (getElem_frames stack ⟨i, hlt⟩ hb).symm
    · rw [List.getElem_append_right (Nat.le_of_not_lt hb), List.getElem_replicate]
      exact hc ⟨i, hlt⟩ (by simpa using hb)

namespace Represents

theorem empty : CallStack.empty.Represents [] where
  clean := .empty
  frames := rfl
  bounded := Nat.zero_le 15

theorem depth (h : stack.Represents addresses) : stack.depth.val = addresses.length := by
  rw [← length_frames, h.frames, List.length_reverse]

theorem slots (h : stack.Represents addresses) : stack.slots.toList =
    addresses.reverse ++ List.replicate (16 - addresses.length) 0 := by
  rw [h.clean.toList_slots, h.frames, h.depth]

theorem last_slot (h : stack.Represents addresses) : stack.slots.get 15 = 0 :=
  h.clean 15 (h.depth ▸ h.bounded)

theorem push_error_iff (h : stack.Represents addresses) {address : Word} :
    stack.push address pc = .error fault ↔
      addresses.length = 15 ∧ fault = .stackOverflow pc 15 := by
  have full : 15 ≤ addresses.length ↔ addresses.length = 15 :=
    ⟨Nat.le_antisymm h.bounded, fun he => Nat.le_of_eq he.symm⟩
  rw [CallStack.push_error_iff, h.depth, full]
  exact and_congr_right fun he => by rw [he]

theorem pop_error_iff (h : stack.Represents addresses) :
    stack.pop pc = .error fault ↔ addresses = [] ∧ fault = .stackUnderflow pc := by
  rw [CallStack.pop_error_iff, h.depth, List.length_eq_zero_iff]

theorem push (h : stack.Represents addresses) (room : addresses.length ≠ 15)
    (hp : stack.push address pc = .ok after) :
    after.Represents (BitVec.ofNat 16 (address.toNat % 4096) :: addresses) where
  clean := h.clean.push hp
  frames := by rw [frames_push hp, h.frames, masked_eq, List.reverse_cons]
  bounded := Nat.lt_of_le_of_ne h.bounded room

theorem pop {newest : Word} (h : stack.Represents (newest :: older))
    (hp : stack.pop pc = .ok (address, after)) :
    address = newest ∧ after.Represents older := by
  have hf := h.frames
  rw [frames_pop hp, List.reverse_cons] at hf
  obtain ⟨hframes, haddress⟩ := List.append_inj' hf rfl
  exact ⟨(List.cons.inj haddress).1,
    { clean := h.clean.pop hp, frames := hframes, bounded := Nat.le_of_succ_le h.bounded }⟩

theorem newest (h : stack.Represents addresses) (hp : stack.pop pc = .ok (address, after)) :
    addresses.head? = some address := by
  cases addresses with
  | nil => cases hp.symm.trans (h.pop_error_iff.mpr ⟨rfl, rfl⟩)
  | cons newest older => rw [(h.pop hp).1, List.head?_cons]

theorem access (h : stack.Represents addresses) (a : Access) :
    (stack.access a).2 = (onList addresses a).2 ∧
      (stack.access a).1.Represents (onList addresses a).1 := by
  cases a with
  | push address pc =>
    by_cases full : addresses.length = 15
    · have hp : stack.push address pc = .error (.stackOverflow pc 15) :=
        h.push_error_iff.mpr ⟨full, rfl⟩
      simp only [CallStack.access, onList, hp, if_pos full]
      exact ⟨trivial, h⟩
    · cases hp : stack.push address pc with
      | error fault => exact absurd (h.push_error_iff.mp hp).1 full
      | ok after =>
        simp only [CallStack.access, onList, hp, if_neg full]
        exact ⟨trivial, h.push full hp⟩
  | pop pc =>
    cases addresses with
    | nil =>
      have hp : stack.pop pc = .error (.stackUnderflow pc) := h.pop_error_iff.mpr ⟨rfl, rfl⟩
      simp only [CallStack.access, onList, hp]
      exact ⟨trivial, h⟩
    | cons newest older =>
      cases hp : stack.pop pc with
      | error fault => cases (h.pop_error_iff.mp hp).1
      | ok result =>
        obtain ⟨rfl, rest⟩ := h.pop hp
        simp only [CallStack.access, onList, hp]
        exact ⟨trivial, rest⟩

theorem accessAll (h : stack.Represents addresses) (accesses : List Access) :
    (CallStack.accessAll CallStack.access stack accesses).2 =
        (CallStack.accessAll onList addresses accesses).2 ∧
      (CallStack.accessAll CallStack.access stack accesses).1.Represents
        (CallStack.accessAll onList addresses accesses).1 := by
  induction accesses generalizing stack addresses with
  | nil => exact ⟨rfl, h⟩
  | cons first rest ih =>
    obtain ⟨reply, left⟩ := h.access first
    obtain ⟨replies, last⟩ := ih left
    refine ⟨?_, last⟩
    rw [CallStack.accessAll, CallStack.accessAll, reply, replies]

end Represents

/-- Whatever is pushed and popped: the replies are those of the list, the depth is its
length, and the slots hold it from its oldest address on and then zeros. A pop faults
on the empty list only and otherwise takes the newest address, a push faults on a list
of fifteen only, and so the last slot is never used. -/
theorem refines_list (accesses : List Access) :
    let stack := (accessAll access empty accesses).1
    let addresses := (accessAll onList [] accesses).1
    (accessAll access empty accesses).2 = (accessAll onList [] accesses).2 ∧
      stack.depth.val = addresses.length ∧
      stack.slots.toList = addresses.reverse ++ List.replicate (16 - addresses.length) 0 ∧
      (∀ pc fault, stack.pop pc = .error fault ↔
        addresses = [] ∧ fault = .stackUnderflow pc) ∧
      (∀ pc address after, stack.pop pc = .ok (address, after) →
        addresses.head? = some address) ∧
      (∀ address pc fault, stack.push address pc = .error fault ↔
        addresses.length = 15 ∧ fault = .stackOverflow pc 15) ∧
      addresses.length ≤ 15 ∧ stack.slots.get 15 = 0 := by
  intro stack addresses
  obtain ⟨replies, h⟩ := Represents.empty.accessAll accesses
  exact ⟨replies, h.depth, h.slots, fun _ _ => h.pop_error_iff,
    fun _ _ _ => h.newest, fun _ _ _ => h.push_error_iff, h.bounded, h.last_slot⟩

end Chip8.CallStack
