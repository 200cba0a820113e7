import Chip8.CallStack

/-!
# The stack as a list of return addresses

A push appends to the frames and a pop takes the last one off. As long as the
slots that are not in use hold zero, the frames are all there is to a stack:
clean stacks with the same frames are equal (`Clean.ext_frames`).
-/

namespace Chip8.CallStack

variable {stack after : CallStack} {address : Word}

@[simp] theorem length_frames (stack : CallStack) : stack.frames.length = stack.depth := by
  rw [frames, List.length_take, Bank.length_toList]
  exact Nat.min_eq_left (Nat.le_of_lt_succ stack.depth.isLt)

theorem depth_eq_of_frames {first second : CallStack} (h : first.frames = second.frames) :
    first.depth = second.depth := by
  have hl := congrArg List.length h
  rw [length_frames, length_frames] at hl
  exact Fin.ext hl

theorem getElem_frames (stack : CallStack) (i : Fin 16) (h : i.val < stack.frames.length) :
    stack.frames[i.val] = stack.slots.get i := by
  simp only [frames, List.getElem_take, Bank.getElem_toList]

def Clean (stack : CallStack) : Prop :=
  ∀ i : Fin 16, stack.depth.val ≤ i.val → stack.slots.get i = 0

theorem Clean.empty : empty.Clean := fun i _ => Bank.get_fill 0 i

theorem Clean.ext_frames {first second : CallStack} (hf : first.Clean) (hs : second.Clean)
    (h : first.frames = second.frames) : first = second := by
  have hd : first.depth = second.depth := depth_eq_of_frames h
  have hslots : first.slots = second.slots := by
    refine Bank.ext_get fun i => ?_
    by_cases hi : i.val < first.depth.val
    · rw [← getElem_frames first i (by simpa using hi),
        ← getElem_frames second i (by simpa [← hd] using hi)]
      simp only [h]
    · rw [hf i (Nat.le_of_not_lt hi), hs i (hd ▸ Nat.le_of_not_lt hi)]
  cases first
  cases second
  cases hd
  cases hslots
  rfl

theorem frames_deeper {deep shallow : CallStack} {top : Fin 16}
    (hd : deep.depth.val = shallow.depth + 1) (hs : deep.slots.get top = address)
    (ht : top.val = shallow.depth)
    (agree : ∀ i : Fin 16, i.val < shallow.depth → deep.slots.get i = shallow.slots.get i) :
    deep.frames = shallow.frames ++ [address] := by
  refine List.ext_getElem (by simp [hd]) fun i hi _ => ?_
  rw [length_frames, hd] at hi
  have hg := getElem_frames deep ⟨i, by omega⟩ (by simpa [hd] using hi)
  by_cases hb : i < shallow.depth.val
  · rw [List.getElem_append_left (by simpa using hb), hg, agree _ hb,
      ← getElem_frames shallow ⟨i, by omega⟩ (by simpa using hb)]
  · have he : (⟨i, by omega⟩ : Fin 16) = top := Fin.ext (show i = top.val by omega)
    rw [List.getElem_append_right (by simpa using hb), hg, he, hs, List.getElem_singleton]

-- ---------------------------------------------------------------------------
-- Push
-- ---------------------------------------------------------------------------

theorem push_ok_iff : stack.push address pc = .ok after ↔ ∃ h : stack.depth.val < 15,
    after = ⟨stack.slots.set ⟨stack.depth, Nat.lt_succ_of_lt h⟩ (address &&& 0xFFF),
      ⟨stack.depth + 1, Nat.succ_lt_succ (Nat.lt_succ_of_lt h)⟩⟩ := by
  unfold push maxDepth
  split
  · next h => simp [h, eq_comm]
  · next h => simp [h]

theorem frames_push (h : stack.push address pc = .ok after) :
    after.frames = stack.frames ++ [address &&& 0xFFF] := by
  obtain ⟨hd, rfl⟩ := push_ok_iff.mp h
  refine frames_deeper rfl (Bank.get_set_self _ _ _) rfl fun i hi => ?_
  exact Bank.get_set_of_ne _ (Fin.ne_of_gt hi) _

theorem depth_push (h : stack.push address pc = .ok after) : after.depth.val ≤ maxDepth := by
  obtain ⟨hd, rfl⟩ := push_ok_iff.mp h
  exact Nat.succ_le_of_lt hd

theorem Clean.push (hc : stack.Clean) (h : stack.push address pc = .ok after) : after.Clean := by
  obtain ⟨hd, rfl⟩ := push_ok_iff.mp h
  intro i hi
  have hi : stack.depth.val < i.val := hi
  rw [Bank.get_set_of_ne _ (Fin.ne_of_lt hi)]
  exact hc i (Nat.le_of_lt hi)

-- ---------------------------------------------------------------------------
-- Pop
-- ---------------------------------------------------------------------------

theorem pop_ok_iff : stack.pop pc = .ok (address, after) ↔ ∃ top : Fin 16,
    stack.depth.val = top + 1 ∧ address = stack.slots.get top ∧
      after = ⟨stack.slots.set top 0, top.castSucc⟩ := by
  unfold pop
  split
  · next h =>
    constructor
    · intro ho
      cases ho
      exact ⟨_, (Nat.succ_pred_eq_of_pos h).symm, rfl, rfl⟩
    · rintro ⟨top, hd, rfl, rfl⟩
      have ht : (⟨stack.depth - 1, by omega⟩ : Fin 16) = top := Fin.ext (by simp [hd])
      simp [← ht]
  · next h =>
    constructor
    · intro ho
      cases ho
    · rintro ⟨top, hd, -⟩
      exact absurd (hd ▸ Nat.succ_pos top) h

theorem frames_pop (h : stack.pop pc = .ok (address, after)) :
    stack.frames = after.frames ++ [address] := by
  obtain ⟨top, hd, rfl, rfl⟩ := pop_ok_iff.mp h
  refine frames_deeper hd rfl rfl fun i hi => ?_
  exact (Bank.get_set_of_ne _ (Fin.ne_of_gt hi) _).symm

theorem depth_pop (h : stack.pop pc = .ok (address, after)) : after.depth.val ≤ stack.depth := by
  obtain ⟨top, hd, rfl, rfl⟩ := pop_ok_iff.mp h
  exact hd ▸ Nat.le_succ top

theorem Clean.pop (hc : stack.Clean) (h : stack.pop pc = .ok (address, after)) : after.Clean := by
  obtain ⟨top, hd, rfl, rfl⟩ := pop_ok_iff.mp h
  intro i hi
  have hi : top.val ≤ i.val := hi
  rw [Bank.get_set]
  split
  · rfl
  · next hne =>
    have hlt : top.val < i.val := Nat.lt_of_le_of_ne hi fun he => hne (Fin.ext he)
    exact hc i (hd ▸ hlt)

theorem pop_push (hc : stack.Clean) (h : stack.push address pc = .ok after) (other : Int) :
    after.pop other = .ok (address &&& 0xFFF, stack) := by
  obtain ⟨hd, rfl⟩ := push_ok_iff.mp h
  refine pop_ok_iff.mpr ⟨⟨stack.depth, Nat.lt_succ_of_lt hd⟩, rfl, ?_, ?_⟩
  · exact (Bank.get_set_self _ _ _).symm
  · rw [Bank.set_set, ← hc ⟨stack.depth, Nat.lt_succ_of_lt hd⟩ (Nat.le_refl _), Bank.set_get]
    rfl

end Chip8.CallStack
