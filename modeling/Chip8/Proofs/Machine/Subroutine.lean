import Chip8.Proofs.CallStack.Frames
import Chip8.Proofs.Machine.Run
import Chip8.Proofs.Machine.WriteSet

/-!
# Subroutines return

`call_returns`: however deep the calls in between, the first instruction that
brings the depth back to where it was before a call is a return, it goes on
after the call, and the stack is the one from before.

Only calls and returns touch the stack (`perform_stack`). While the call has not
returned its frame lies above those of its caller (`Within`), until a return
takes it off.
-/

namespace Chip8

def Call.Paced : Call → Prop
  | .clock | .tick | .setKey .. => True
  | _ => False

namespace Machine

variable {m after : Machine} {i : Instruction} {op : Operation}

theorem perform_stack (h : m.perform i op = .ok after) :
    (op = .call ∧ m.stack.push m.pc m.pc.toNat = .ok after.stack) ∨
      (op = .ret ∧ m.stack.pop m.pc.toNat = .ok (after.pc, after.stack)) ∨
      after.stack = m.stack := by
  by_cases hc : op = .call
  · subst hc
    obtain ⟨stack, hs, rfl⟩ := perform_call_ok.mp h
    exact .inl ⟨rfl, hs⟩
  by_cases hr : op = .ret
  · subst hr
    obtain ⟨address, stack, hs, rfl⟩ := perform_ret_ok.mp h
    exact .inr (.inl ⟨rfl, hs⟩)
  · exact .inr (.inr ((perform_changesOnly h).stack hc hr))

theorem preserved_of_stack {P : CallStack → Prop} (empty : P .empty)
    (push : ∀ {stack after address pc}, P stack → stack.push address pc = .ok after → P after)
    (pop : ∀ {stack after address pc}, P stack → stack.pop pc = .ok (address, after) → P after) :
    Preserved fun m => P m.stack where
  load hm h := by rw [loadRom_eq h]; exact hm
  reset {m clear} _ := by
    cases clear with
    | false => exact empty
    | true => exact empty
  fetch hm h := by rw [fetch_eq h]; exact hm
  execute hm h := by
    rcases perform_stack h with ⟨_, hs⟩ | ⟨_, hs⟩ | hs
    · exact push hm hs
    · exact pop hm hs
    · rwa [hs]
  tick hm := hm
  setKey hm h := by rw [setKey_eq h]; exact hm

theorem Reachable.clean (h : m.Reachable) : m.stack.Clean :=
  (preserved_of_stack .empty .push .pop).reachable (fun _ => CallStack.Clean.empty) h

theorem Reachable.bounded (h : m.Reachable) : m.stack.depth.val ≤ CallStack.maxDepth :=
  (preserved_of_stack (P := fun stack => stack.depth.val ≤ CallStack.maxDepth) (Nat.zero_le _)
    (fun _ => CallStack.depth_push) fun hm hs => Nat.le_trans (CallStack.depth_pop hs) hm).reachable
      (fun _ => Nat.zero_le _) h

/-- A call has been made on top of the frames `outer`, and it is to return to
`address`. -/
structure Within (outer : List Word) (address : Word) (stack : CallStack) : Prop where
  clean : stack.Clean
  frames : outer ++ [address] <+: stack.frames

namespace Within

variable {outer : List Word} {address : Word}

theorem depth_ne (h : Within outer address m.stack) : m.stack.depth.val ≠ outer.length := by
  have hl := h.frames.length_le
  rw [List.length_append, List.length_singleton, CallStack.length_frames] at hl
  omega

theorem perform (hw : Within outer address m.stack) (h : m.perform i op = .ok after) :
    Within outer address after.stack ∨
      op = .ret ∧ after.pc = address ∧ after.stack.Clean ∧ after.stack.frames = outer := by
  rcases perform_stack h with ⟨_, hs⟩ | ⟨rfl, hs⟩ | hs
  · refine .inl ⟨hw.clean.push hs, ?_⟩
    rw [CallStack.frames_push hs]
    exact hw.frames.trans (List.prefix_append _ _)
  · have hf := hw.frames
    rw [CallStack.frames_pop hs, List.prefix_concat_iff] at hf
    rcases hf with he | hf
    · obtain ⟨hframes, hpc⟩ := List.append_inj' he rfl
      exact .inr ⟨rfl, (List.cons.inj hpc).1.symm, hw.clean.pop hs, hframes.symm⟩
    · exact .inl ⟨hw.clean.pop hs, hf⟩
  · exact .inl (hs ▸ hw)

theorem clock (hw : Within outer address m.stack) (h : m.clock = .ok after) :
    Within outer address after.stack ∨
      m.nextOperation = .ok .ret ∧ after.pc = address ∧ after.stack.Clean ∧
        after.stack.frames = outer := by
  obtain ⟨fetched, word, hf, hx⟩ := clock_ok h
  have hs : fetched.stack = m.stack := by rw [fetch_eq hf]
  rcases perform (hs ▸ hw) hx with hw | ⟨hret, hrest⟩
  · exact .inl hw
  · refine .inr ⟨?_, hrest⟩
    rw [nextOperation, hf, ← hret]
    rfl

theorem respond {call : Call} (hw : Within outer address m.stack) (hp : call.Paced)
    (hs : m.Succeeding call) :
    Within outer address (m.respond call).1.stack ∨
      call = .clock ∧ m.nextOperation = .ok .ret ∧ (m.respond call).1.pc = address ∧
        (m.respond call).1.stack.Clean ∧ (m.respond call).1.stack.frames = outer := by
  cases call with
  | clock =>
    rcases hw.clock (settle_done (hs rfl)) with hw | hret
    · exact .inl hw
    · exact .inr ⟨rfl, hret⟩
  | tick => exact .inl hw
  | setKey key pressed =>
    refine .inl ?_
    rw [Machine.respond]
    split
    · refine settle_keeps (P := fun m => Within outer address m.stack) hw fun after hk => ?_
      rw [setKey_eq hk]
      exact hw
    · exact hw
  | _ => cases hp

end Within

theorem within_call {s : Machine} {word : Word} (clean : s.stack.Clean)
    (running : s.status = .running) (fetched : s.memory.word s.pc.toNat = .ok word)
    (calls : (Instruction.ofWord word).operation = .call) (h : s.clock = .ok after) :
    Within s.stack.frames ((s.pc + 2) &&& 0xFFF) after.stack := by
  rw [clock_of_fetch (fetch_word running fetched), calls] at h
  obtain ⟨stack, hs, rfl⟩ := perform_call_ok.mp h
  exact ⟨clean.push hs, CallStack.frames_push hs ▸ List.prefix_refl _⟩

theorem toNat_masked (address : Word) : (address &&& 0xFFF).toNat = address.toNat % 4096 := by
  rw [BitVec.toNat_and]
  exact Nat.and_two_pow_sub_one_eq_mod address.toNat 12

/-- From the call on, the first request that brings the depth back is the clock
that executes a return; it returns behind the call, with the stack as it was. -/
theorem call_returns {s : Machine} {word : Word} {calls : List Call} {last : Call}
    (reachable : s.Reachable) (running : s.status = .running)
    (fetched : s.memory.word s.pc.toNat = .ok word)
    (calling : (Instruction.ofWord word).operation = .call)
    (paced : ∀ call ∈ calls ++ [last], call.Paced)
    (succeeding : s.Throughout Succeeding (.clock :: calls ++ [last]))
    (deeper : s.Throughout (fun m call => (m.respond call).1.stack.depth ≠ s.stack.depth)
      (.clock :: calls))
    (back : (s.respondAll (.clock :: calls ++ [last])).stack.depth = s.stack.depth) :
    last = .clock ∧ (s.respondAll (.clock :: calls)).nextOperation = .ok .ret ∧
      (s.respondAll (.clock :: calls ++ [last])).pc.toNat = (s.pc.toNat + 2) % 4096 ∧
      (s.respondAll (.clock :: calls ++ [last])).stack = s.stack := by
  obtain ⟨hbefore, hlast⟩ := Throughout.append_iff.mp succeeding
  have hcalls := (Throughout.of_forall (fun c hc _ => paced c (List.mem_append_left _ hc)) _).and
    hbefore.2
  -- up to the last request the frame of the call stays where it was put
  have hin : Within s.stack.frames ((s.pc + 2) &&& 0xFFF)
      (s.respondAll (.clock :: calls)).stack := by
    refine (hcalls.and deeper.2).invariant (I := fun m => Within _ _ m.stack) ?_ ?_
    · exact within_call reachable.clean running fetched calling (settle_done (succeeding.1 rfl))
    · rintro m call hw ⟨⟨hp, hs⟩, hd⟩
      rcases hw.respond hp hs with hw | ⟨-, -, -, -, hframes⟩
      · exact hw
      · exact absurd (CallStack.depth_eq_of_frames hframes) hd
  rw [respondAll_append] at back ⊢
  rcases hin.respond (paced last (by simp)) hlast.1 with hw | ⟨hclock, hret, hpc, hclean, hframes⟩
  · refine absurd ?_ hw.depth_ne
    rw [CallStack.length_frames]
    exact congrArg Fin.val back
  · refine ⟨hclock, hret, ?_, hclean.ext_frames reachable.clean hframes⟩
    rw [← toNat_next fetched, ← toNat_masked, ← hpc]
    rfl

def nestedCalls : Machine :=
  (powerOn ⟨0, 0⟩).respondAll
    [.loadRom [0x22, 0x04, 0x12, 0x02, 0x22, 0x08, 0x00, 0xEE, 0x00, 0xEE]]

theorem call_returns_nested :
    let inner : List Call := [.clock, .tick, .clock, .setKey (.whole 5) true]
    (nestedCalls.respondAll (.clock :: inner)).nextOperation = .ok .ret ∧
      (nestedCalls.respondAll (.clock :: inner ++ [.clock])).pc.toNat = 0x202 := by
  intro inner
  have fetched : nestedCalls.memory.word nestedCalls.pc.toNat = .ok 0x2204 :=
    Memory.word_ok_iff.mpr ⟨by decide, by decide +kernel⟩
  have run : nestedCalls.Throughout Succeeding (.clock :: inner ++ [.clock]) ∧
      nestedCalls.Throughout
        (fun m call => (m.respond call).1.stack.depth ≠ nestedCalls.stack.depth)
        (.clock :: inner) ∧
      (nestedCalls.respondAll (.clock :: inner ++ [.clock])).stack.depth =
        nestedCalls.stack.depth := by
    decide +kernel
  obtain ⟨-, hret, hpc, -⟩ := @call_returns nestedCalls 0x2204 inner .clock ⟨_, _, rfl⟩ rfl
    fetched (by decide) (by simp [inner, Call.Paced]) run.1 run.2.1 run.2.2
  exact ⟨hret, hpc⟩

-- ---------------------------------------------------------------------------
-- A call that is followed by its return
-- ---------------------------------------------------------------------------

theorem clock_call {word : Word} (clean : m.stack.Clean) (running : m.status = .running)
    (room : m.stack.depth.val < 15) (fetched : m.memory.word m.pc.toNat = .ok word)
    (calling : (Instruction.ofWord word).operation = .call) :
    ∃ stack, (∀ pc, stack.pop pc = .ok ((m.pc + 2) &&& 0xFFF, m.stack)) ∧ m.clock =
      .ok { m with stack := stack, pc := (Instruction.ofWord word).address, held := word } := by
  obtain ⟨stack, hs⟩ : ∃ stack, m.stack.push (m.pc + 2) (m.pc + 2).toNat = .ok stack :=
    ⟨_, CallStack.push_ok_iff.mpr ⟨room, rfl⟩⟩
  refine ⟨stack, CallStack.pop_push clean hs, ?_⟩
  rw [clock_of_fetch (fetch_word running fetched), calling]
  exact perform_call_ok.mpr ⟨stack, hs, rfl⟩

theorem clock_ret {address : Word} {stack : CallStack} (running : m.status = .running)
    (fetched : m.memory.word m.pc.toNat = .ok 0x00EE)
    (popped : ∀ pc, m.stack.pop pc = .ok (address, stack)) :
    m.clock = .ok { m with stack := stack, pc := address, held := 0x00EE } := by
  have hret : (Instruction.ofWord 0x00EE).operation = .ret := by decide
  rw [clock_of_fetch (fetch_word running fetched), hret]
  exact perform_ret_ok.mpr ⟨address, stack, popped _, rfl⟩

/-- A call and the return that it calls restore the machine but for the held
word, and go on behind the call. From the last word of memory that is the first
cell again, as return addresses have twelve bits. -/
theorem call_then_return {x y n : Fin 16} (reachable : m.Reachable) (running : m.status = .running)
    (room : m.stack.depth.val < 15)
    (calling : m.memory.word m.pc.toNat = .ok (Instruction.toWord ⟨2, x, y, n⟩))
    (returning : m.memory.word (Instruction.mk 2 x y n).address.toNat = .ok 0x00EE) :
    ∃ called returned, m.clock = .ok called ∧ called.clock = .ok returned ∧
      returned = { m with pc := returned.pc, held := 0x00EE } ∧
      returned.pc.toNat = (m.pc.toNat + 2) % 4096 ∧
      (m.pc.toNat ≠ 4094 → returned.pc = m.pc + 2) := by
  have hi : Instruction.ofWord (Instruction.toWord ⟨2, x, y, n⟩) = ⟨2, x, y, n⟩ :=
    Instruction.ofWord_toWord _
  have hcall : (Instruction.ofWord (Instruction.toWord ⟨2, x, y, n⟩)).operation = .call := by
    rw [hi]
    rfl
  obtain ⟨stack, hpop, hclock⟩ := clock_call reachable.clean running room calling hcall
  rw [hi] at hclock
  have hpc : ((m.pc + 2) &&& 0xFFF).toNat = (m.pc.toNat + 2) % 4096 := by
    rw [toNat_masked, toNat_next calling]
  refine ⟨_, _, hclock, clock_ret running returning hpop, rfl, hpc, fun hne => ?_⟩
  obtain ⟨hb, -⟩ := Memory.word_ok_iff.mp calling
  refine BitVec.eq_of_toNat_eq (hpc.trans ?_)
  rw [toNat_next calling]
  exact Nat.mod_eq_of_lt (by omega)

theorem call_then_return_inner :
    let m := nestedCalls.respondAll [.clock]
    ∃ called returned, m.clock = .ok called ∧ called.clock = .ok returned ∧
      returned.pc = m.pc + 2 ∧ returned.stack = m.stack := by
  intro m
  have loaded : nestedCalls.Reachable := ⟨_, _, rfl⟩
  have reachable : m.Reachable := loaded.respondAll [.clock]
  have here : m.status = .running ∧ m.stack.depth.val < 15 ∧
      m.memory.word m.pc.toNat = .ok (Instruction.toWord ⟨2, 2, 0, 8⟩) ∧
      m.memory.word (Instruction.mk 2 2 0 8).address.toNat = .ok 0x00EE ∧
      m.pc.toNat ≠ 4094 := by
    decide +kernel
  obtain ⟨running, room, calling, returning, inside⟩ := here
  obtain ⟨called, returned, hcall, hret, heq, -, hpc⟩ :=
    call_then_return reachable running room calling returning
  refine ⟨called, returned, hcall, hret, hpc inside, ?_⟩
  rw [heq]

def edgeCall : Machine :=
  (powerOn ⟨0, 0⟩).respondAll
    [.loadRom [0x00, 0xEE], .execute (some 0x6022), .execute (some 0xAFFE), .execute (some 0xF155),
      .execute (some 0x1FFE)]

/-- Behind the last word the program goes on at the first cell. -/
theorem edge_call_wraps :
    edgeCall.Reachable ∧ edgeCall.status = .running ∧ edgeCall.stack.depth.val < 15 ∧
      edgeCall.memory.word edgeCall.pc.toNat = .ok (Instruction.toWord ⟨2, 2, 0, 0⟩) ∧
      edgeCall.memory.word (Instruction.mk 2 2 0 0).address.toNat = .ok 0x00EE ∧
      edgeCall.pc.toNat = 4094 ∧ edgeCall.Throughout Succeeding [.clock, .clock] ∧
      (edgeCall.respondAll [.clock, .clock]).pc.toNat = 0 :=
  ⟨⟨_, _, rfl⟩, by decide +kernel⟩

end Machine

end Chip8
