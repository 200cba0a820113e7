import Chip8.Proofs.Machine.Restart

/-!
# Registers saved in memory

What a machine stores of its registers it can load again, whatever it executes in
between, as long as that stores nothing and the index register comes back
(`saved_registers`). The other way round, storing what has just been loaded changes
nothing.
-/

namespace Chip8

namespace Machine

variable {m after later : Machine} {x : Fin 16} {a : Fin 4096}

theorem executeAll_sameProgram {words : List Int}
    (quiet : ∀ word ∈ words, ¬ (Instruction.ofInt word).operation.Stores)
    (run : m.executeAll words = .ok after) : SameProgram m after := by
  induction words generalizing m with
  | nil => cases run; exact {}
  | cons word rest ih =>
    obtain ⟨first, later⟩ := List.forall_mem_cons.mp quiet
    rw [executeAll, List.foldlM_cons] at run
    obtain ⟨next, once, run⟩ := bind_ok_iff.mp run
    exact (perform_sameProgram first once).trans (ih later run)

-- ---------------------------------------------------------------------------
-- One instruction
-- ---------------------------------------------------------------------------

theorem getElem_firstRegisters (m : Machine) (x : Fin 16) {i : Nat}
    (h : i < (m.firstRegisters (x + 1)).length) (hi : i < 16) :
    (m.firstRegisters (x + 1))[i] = m.registers.get ⟨i, hi⟩ := by
  simp only [firstRegisters, List.getElem_take, Bank.getElem_toList]

theorem execute_store (fits : m.index.toNat + (x + 1) ≤ 4096) :
    m.execute (0xF055 + 0x100 * x : Nat) = .ok { m with
      memory := m.memory.overlay m.index.toNat (m.firstRegisters (x + 1)) } := by
  have hi : Instruction.ofInt (0xF055 + 0x100 * x : Nat) = ⟨0xF, x, 5, 5⟩ :=
    Instruction.ofInt_behind 0xF x 5 5
  rw [execute, hi]
  exact storeAtIndex_ok.mpr ⟨by rwa [length_firstRegisters], rfl⟩

theorem execute_load (fits : m.index.toNat + (x + 1) ≤ 4096) :
    ∃ bytes, m.memory.load m.index.toNat (x + 1) = .ok bytes ∧
      m.execute (0xF065 + 0x100 * x : Nat) =
        .ok { m with registers := m.registers.overlay 0 bytes } := by
  have hi : Instruction.ofInt (0xF065 + 0x100 * x : Nat) = ⟨0xF, x, 6, 5⟩ :=
    Instruction.ofInt_behind 0xF x 6 5
  have read := m.memory.load_eq_ok fits
  refine ⟨_, read, ?_⟩
  rw [execute, hi]
  exact perform_loadRegisters_ok.mpr ⟨_, read, rfl⟩

theorem get_stored {r : Fin 16} (hr : r ≤ x) (ha : a.val = m.index.toNat + r) :
    (m.memory.overlay m.index.toNat (m.firstRegisters (x + 1))).get a = m.registers.get r := by
  have hv : r.val < (m.firstRegisters (x + 1)).length := by
    rw [length_firstRegisters]
    exact Nat.lt_succ_of_le hr
  rw [Bank.get_overlay_inside _ ha hv, m.getElem_firstRegisters x hv r.isLt]

theorem get_loaded {memory : Memory} {registers : Registers} {r : Fin 16}
    (read : memory.load address (x + 1) = .ok bytes) (hr : r ≤ x) (ha : a.val = address + r) :
    (registers.overlay 0 bytes).get r = memory.get a := by
  obtain ⟨_, rfl⟩ := Memory.load_ok_iff.mp read
  have hv : r.val < x.val + 1 := Nat.lt_succ_of_le hr
  rw [Bank.get_overlay, if_pos (Nat.zero_le _), Nat.sub_zero, List.getElem?_ofFn, dif_pos hv]
  exact congrArg memory.get (Fin.ext ha.symm)

theorem get_unloaded {r : Fin 16} (read : m.memory.load address (x + 1) = .ok bytes) (hr : x < r) :
    (m.registers.overlay 0 bytes).get r = m.registers.get r :=
  get_loaded_outside (i := ⟨0xF, x, 6, 5⟩) read (by simpa [Operation.registersWritten] using hr)

-- ---------------------------------------------------------------------------
-- One after the other
-- ---------------------------------------------------------------------------

theorem load_stored {y r : Fin 16} (hy : y ≤ x) (hr : r ≤ y)
    (memory : later.memory = m.memory.overlay m.index.toNat (m.firstRegisters (x + 1)))
    (back : later.index = m.index)
    (read : later.memory.load later.index.toNat (y + 1) = .ok bytes) :
    (later.registers.overlay 0 bytes).get r = m.registers.get r := by
  have hb : m.index.toNat + r < 4096 := by
    have := (Memory.load_ok_iff.mp read).1
    rw [back] at this
    omega
  rw [get_loaded (a := ⟨m.index.toNat + r, hb⟩) read hr (by rw [back]), memory]
  exact get_stored (Nat.le_trans hr hy) rfl

theorem overlay_loaded (read : m.memory.load m.index.toNat (x + 1) = .ok bytes) :
    m.memory.overlay m.index.toNat
      ({ m with registers := m.registers.overlay 0 bytes }.firstRegisters (x + 1)) = m.memory := by
  refine Bank.overlay_eq (fun a i hi ha => ?_) fun _ _ => rfl
  have hx : i < x.val + 1 := by simpa using hi
  have hr : i < 16 := by omega
  rw [getElem_firstRegisters _ x hi hr]
  exact get_loaded read (Nat.le_of_lt_succ hx) ha

/-- Registers that were stored come back when as many of them or fewer are loaded from
the same place; the others stay as they are by then. Storing registers that have just
been loaded leaves the machine as it is. -/
theorem saved_registers (fits : m.index.toNat + x + 1 ≤ 4096) :
    (∃ stored, m.execute (0xF055 + 0x100 * x : Nat) = .ok stored ∧
      (∀ a : Fin 4096, ¬ (m.index.toNat ≤ a.val ∧ a.val ≤ m.index.toNat + x) →
        stored.memory.get a = m.memory.get a) ∧
      ∀ (words : List Int) (later : Machine),
        (∀ word ∈ words, ¬ (Instruction.ofInt word).operation.Stores) →
        stored.executeAll words = .ok later → later.index = m.index →
        ∀ y ≤ x, ∃ loaded, later.execute (0xF065 + 0x100 * y : Nat) = .ok loaded ∧
          (∀ r ≤ y, loaded.registers.get r = m.registers.get r) ∧
          (∀ r, y < r → loaded.registers.get r = later.registers.get r) ∧
          loaded = { later with registers := loaded.registers }) ∧
    ∃ loaded, m.execute (0xF065 + 0x100 * x : Nat) = .ok loaded ∧
      loaded.memory = m.memory ∧
      loaded.execute (0xF055 + 0x100 * x : Nat) = .ok loaded := by
  constructor
  · refine ⟨_, execute_store fits, ?_, ?_⟩
    · intro a outside
      refine Bank.get_overlay_outside _ ?_
      rw [length_firstRegisters]
      omega
    · intro words later quiet run back y hy
      have memory := (executeAll_sameProgram quiet run).memory
      have fits' : later.index.toNat + (y + 1) ≤ 4096 := by
        rw [back]
        omega
      obtain ⟨bytes, read, loads⟩ := execute_load fits'
      exact ⟨_, loads, fun r hr => load_stored hy hr memory back read,
        fun r hr => get_unloaded read hr, rfl⟩
  · obtain ⟨bytes, read, loads⟩ := execute_load fits
    let loaded : Machine := { m with registers := m.registers.overlay 0 bytes }
    refine ⟨loaded, loads, rfl, ?_⟩
    have stores := execute_store (m := loaded) fits
    rwa [overlay_loaded read] at stores

theorem saved_registers_last_cells :
    let m : Machine := { powerOn ⟨0, 0⟩ with
      index := 0xFF0
      registers := .ofFn fun r => BitVec.ofNat 8 (r + 1) }
    m.index.toNat + (0xF : Fin 16) + 1 ≤ 4096 ∧
      ∃ stored later loaded, m.execute 0xFF55 = .ok stored ∧
        stored.executeAll [0x60AA, 0x63BB, 0xA300, 0x6FCC, 0xAFF0] = .ok later ∧
        later.execute 0xF365 = .ok loaded ∧ loaded.registers.get 0 = 1 ∧
        loaded.registers.get 3 = 4 ∧ loaded.registers.get 0xF = 0xCC := by
  intro m
  have fits : m.index.toNat + (0xF : Fin 16) + 1 ≤ 4096 := by decide
  obtain ⟨⟨stored, stores, -, restores⟩, -⟩ := saved_registers fits
  obtain ⟨loaded, loads, back, kept, -⟩ :=
    restores [0x60AA, 0x63BB, 0xA300, 0x6FCC, 0xAFF0] _ (by decide) rfl rfl 3 (by decide)
  exact ⟨fits, stored, _, loaded, stores, rfl, loads, back 0 (by decide), back 3 (by decide),
    (kept 0xF (by decide)).trans (Bank.get_set_self ..)⟩

end Machine

end Chip8
