import Chip8.Proofs.Machine.Subroutine

/-!
# Machines that execute what they fetch

A host that gives no words of its own finds its machine in order after every
request (`driven_run`): the program counter stays far from the edge of its
sixteen bits, and a wait for a key can go on. Neither holds alone. A word that
is held during a wait is executed without a fetch, clock after clock; a skip
among them would carry the program counter anywhere.
-/

namespace Chip8

-- ---------------------------------------------------------------------------
-- Addresses
-- ---------------------------------------------------------------------------

namespace Instruction

variable {i : Instruction}

theorem address_lt (i : Instruction) : i.address.toNat < 4096 := by
  have := i.x.isLt
  have := i.y.isLt
  have := i.n.isLt
  rw [toNat_address]
  omega

theorem eq_of_awaitKey (h : i.operation = .awaitKey) : i = ⟨0xF, i.x, 0, 0xA⟩ := by
  obtain ⟨hf, hb⟩ : i.family.val = 0xF ∧ i.byte.toNat = 0xA := by
    unfold operation peripheral at h
    split at h
    all_goals try split at h
    all_goals cases h
    exact ⟨‹_›, ‹_›⟩
  obtain ⟨family, x, y, n⟩ := i
  rw [toNat_byte] at hb
  have hyn : 16 * y.val + n.val = 0xA := hb
  have hy : y = 0 := Fin.ext (show y.val = 0 by omega)
  have hn : n = 0xA := Fin.ext (show n.val = 0xA by omega)
  rw [show family = 0xF from Fin.ext hf, hy, hn]

end Instruction

def CallStack.Short (stack : CallStack) : Prop :=
  ∀ slot, (stack.slots.get slot).toNat < 4096

namespace CallStack.Short

variable {stack after : CallStack} {address : Word}

theorem empty : CallStack.empty.Short := fun slot => by
  rw [CallStack.empty, Bank.get_fill]
  decide

theorem replace {slots : Bank 16 Word} (hs : ∀ slot, (slots.get slot).toNat < 4096)
    (ha : address.toNat < 4096) (top slot : Fin 16) :
    ((slots.set top address).get slot).toNat < 4096 := by
  rw [Bank.get_set]
  split
  · exact ha
  · exact hs slot

theorem push (hs : stack.Short) (h : stack.push address pc = .ok after) : after.Short := by
  obtain ⟨_, rfl⟩ := push_ok_iff.mp h
  refine replace hs ?_ _
  rw [Machine.toNat_masked]
  exact Nat.mod_lt _ (by decide)

theorem pop (hs : stack.Short) (h : stack.pop pc = .ok (address, after)) :
    address.toNat < 4096 ∧ after.Short := by
  obtain ⟨top, _, rfl, rfl⟩ := pop_ok_iff.mp h
  exact ⟨hs top, replace hs (by decide) _⟩

end CallStack.Short

namespace Machine

variable {m after : Machine} {i : Instruction} {op : Operation}

theorem preserved_short : Preserved fun m => m.stack.Short :=
  preserved_of_stack .empty .push fun hs h => (hs.pop h).2

/-- Where an instruction can lead to: a jump goes up to 0xFFF, with an offset
0xFF further. -/
theorem perform_pc (short : m.stack.Short) (h : m.perform i op = .ok after) :
    after.pc.toNat ≤ 0x10FE ∨ after.pc = m.pc ∨ after.pc = m.pc + 2 := by
  have hi := i.address_lt
  cases op with
  | jump =>
    cases h
    exact .inl (Nat.le_trans (Nat.le_of_lt hi) (by decide))
  | call =>
    obtain ⟨_, _, rfl⟩ := perform_call_ok.mp h
    exact .inl (Nat.le_trans (Nat.le_of_lt hi) (by decide))
  | ret =>
    obtain ⟨address, _, hp, rfl⟩ := perform_ret_ok.mp h
    exact .inl (Nat.le_trans (Nat.le_of_lt (short.pop hp).1) (by decide))
  | jumpOffset =>
    cases h
    have hv := (m.registers.get 0).isLt
    refine .inl ?_
    simp only [BitVec.toNat_add, BitVec.toNat_setWidth]
    omega
  | _ =>
    rcases (perform_changesOnly h).pc nofun nofun nofun nofun with hpc | ⟨_, hpc⟩
    · exact .inr (.inl hpc)
    · exact .inr (.inr hpc)

theorem toNat_next_le (fetched : m.memory.word m.pc.toNat = .ok word) :
    (m.pc + 2).toNat ≤ 4096 := by
  obtain ⟨hb, -⟩ := Memory.word_ok_iff.mp fetched
  rw [toNat_next fetched]
  omega

theorem toNat_skip {pc : Word} (h : pc.toNat ≤ 0x10FE) : (pc + 2).toNat = pc.toNat + 2 := by
  rw [BitVec.toNat_add]
  exact Nat.mod_eq_of_lt (Nat.lt_of_le_of_lt (Nat.add_le_add_right h 2) (by decide))

-- ---------------------------------------------------------------------------
-- What a clock keeps
-- ---------------------------------------------------------------------------

structure Regular (m : Machine) : Prop where
  pc : m.pc.toNat ≤ 0x10FE
  short : m.stack.Short
  held : m.status = .awaitingKey → (Instruction.ofWord m.held).operation = .awaitKey
  romSize : 0 ≤ m.romSize ∧ m.romSize ≤ romCapacity

namespace Regular

theorem start (key : Random.Key) : Regular (powerOn key) where
  pc := (by decide : (BitVec.ofNat 16 programStart).toNat ≤ 0x10FE)
  short := .empty
  held := nofun
  romSize := (by decide : 0 ≤ (0 : Int) ∧ (0 : Int) ≤ romCapacity)

theorem load (hm : Regular m) (h : m.loadRom rom = .ok after) : Regular after := by
  unfold loadRom at h
  split at h
  · next fits =>
    cases h
    exact { hm with romSize := ⟨Int.natCast_nonneg _, Int.ofNat_le.mpr fits⟩ }
  · cases h

theorem reset (hm : Regular m) (clear : Bool) : Regular (m.reset clear) := by
  cases clear with
  | true => exact start m.random
  | false =>
    rw [reset_false]
    exact ⟨(start m.random).pc, .empty, nofun, hm.romSize⟩

theorem fetch (hm : Regular m) (h : m.fetch = .ok (after, word)) : Regular after := by
  rcases fetch_cases h with ⟨running, hw, rfl⟩ | ⟨-, rfl, -⟩
  · have hpc : (m.pc + 2).toNat ≤ 0x10FE := Nat.le_trans (toNat_next_le hw) (by decide)
    exact ⟨hpc, hm.short, fun waiting => (nomatch running.symm.trans waiting), hm.romSize⟩
  · exact hm

theorem pc_clock (hm : Regular m) (h : m.clock = .ok after) : after.pc.toNat ≤ 0x10FE := by
  obtain ⟨fetched, word, hf, hx⟩ := clock_ok h
  have hfetched := hm.fetch hf
  rcases fetch_cases hf with ⟨-, hw, rfl⟩ | ⟨waiting, rfl, rfl⟩
  · have hnext : (m.pc + 2).toNat ≤ 4096 := toNat_next_le hw
    rcases perform_pc hfetched.short hx with hpc | hpc | hpc
    · exact hpc
    · exact hpc ▸ hfetched.pc
    · rw [hpc, toNat_skip hfetched.pc]
      exact Nat.le_trans (Nat.add_le_add_right hnext 2) (by decide)
  · -- the bound on the program counter depends on the held word here
    rw [hm.held waiting] at hx
    cases hx
    rw [takeKey_eq]
    exact hm.pc

theorem held_clock (hm : Regular m) (h : m.clock = .ok after)
    (waiting : after.status = .awaitingKey) :
    (Instruction.ofWord after.held).operation = .awaitKey := by
  obtain ⟨fetched, word, hf, hx⟩ := clock_ok h
  have only := perform_changesOnly hx
  rw [only.held, held_fetched hf]
  by_cases awaits : (Instruction.ofWord word).operation = .awaitKey
  · exact awaits
  · rw [only.status awaits] at waiting
    rw [← held_fetched hf]
    exact (hm.fetch hf).held waiting

theorem clock (hm : Regular m) (h : m.clock = .ok after) : Regular after := by
  obtain ⟨fetched, word, hf, hx⟩ := clock_ok h
  have hfetched := hm.fetch hf
  refine ⟨hm.pc_clock h, preserved_short.driven.clock hm.short h, hm.held_clock h, ?_⟩
  rw [(perform_changesOnly hx).romSize]
  exact hfetched.romSize

theorem driven : Driven Regular where
  load := load
  fetch := fetch
  setKey hm h := by
    rw [setKey_eq h]
    exact { hm with }
  reset hm := hm.reset _
  tick hm := { hm with }
  clock := clock

theorem clock_waiting (hm : Regular m) (waiting : m.status = .awaitingKey) :
    m.clock = .ok (m.takeKey (Instruction.ofWord m.held).x) := by
  rw [clock_of_fetch (fetch_waiting waiting), hm.held waiting]
  rfl

end Regular

/-- After any run in which the host executes no word of its own, no addition to
the program counter has wrapped or can wrap, a waiting machine holds the word
that it waits on and cannot fault, and the program in memory has a size that
fits. What a frame passes through is where a shorter frame would have ended. -/
theorem driven_run (key : Random.Key) {calls : List Call} (driven : ∀ call ∈ calls, call.Driven) :
    let m := (powerOn key).respondAll calls
    m.pc.toNat ≤ 0x10FE ∧ (m.pc + 2).toNat = m.pc.toNat + 2 ∧
      (∀ fetched word, m.fetch = .ok (fetched, word) →
        (fetched.pc + 2).toNat = fetched.pc.toNat + 2) ∧
      (m.status = .awaitingKey → (∃ x, m.held = Instruction.toWord ⟨0xF, x, 0, 0xA⟩) ∧
        ∃ after, m.clock = .ok after) ∧
      0 ≤ m.romSize ∧ m.romSize ≤ 3584 := by
  intro m
  have hm : Regular m := Regular.driven.respondAll (.start key) driven
  refine ⟨hm.pc, toNat_skip hm.pc, fun fetched word hf => toNat_skip (hm.fetch hf).pc,
    fun waiting => ⟨⟨(Instruction.ofWord m.held).x, ?_⟩, _, hm.clock_waiting waiting⟩, hm.romSize⟩
  rw [← Instruction.eq_of_awaitKey (hm.held waiting), Instruction.toWord_ofWord]

/-- A wait that begins within a frame and ends after a fetch of the host, and then
a jump as far as jumps go. -/
theorem driven_run_farthest :
    let calls : List Call := [.loadRom [0xF1, 0x0A, 0x60, 0xFF, 0xBF, 0xFF], .frame 3,
      .setKey (.whole 5) true, .fetch, .frame 3]
    let waiting := (powerOn ⟨0, 0⟩).respondAll (calls.take 2)
    let m := (powerOn ⟨0, 0⟩).respondAll calls
    waiting.status = .awaitingKey ∧ (∃ after, waiting.clock = .ok after) ∧
      m.pc.toNat = 0x10FE ∧ (m.pc + 2).toNat = 0x1100 := by
  intro calls waiting m
  have driven : ∀ call ∈ calls, call.Driven := by simp [calls, Call.Driven]
  have waits : waiting.status = .awaitingKey := by decide +kernel
  have far : m.pc.toNat = 0x10FE := by decide +kernel
  have before := @driven_run ⟨0, 0⟩ (calls.take 2)
    fun call hc => driven call (List.mem_of_mem_take hc)
  have now := driven_run ⟨0, 0⟩ driven
  exact ⟨waits, (before.2.2.2.1 waits).2, far, now.2.1.trans (congrArg (· + 2) far)⟩

end Machine

end Chip8
