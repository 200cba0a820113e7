import Chip8.Proofs.Machine.Restart

/-!
# Loading a program

A program of at most 3584 bytes goes to the cells from 0x200 on and leaves all else
as it was; a longer one leaves everything as it was, and so do values that are no
bytes, however many they are. What a program does not reach stays from the one
before (`load_overlays`).
-/

namespace Chip8

theorem mapM_byte?_eq_none {values : List Int}
    (h : ∃ value ∈ values, ¬ (0 ≤ value ∧ value < 256)) : values.mapM byte? = none := by
  obtain ⟨value, member, bad⟩ := h
  induction member with
  | head rest =>
    rw [List.mapM_cons, byte?, if_neg bad]
    rfl
  | tail first _ ih =>
    rw [List.mapM_cons, ih]
    cases byte? first <;> rfl

/-- What a second block does not cover of a first one is in place already. -/
theorem Bank.overlay_overlay_eq_iff (bank : Bank size α) {start : Nat} {first : List α}
    (second : List α) (fits : start + first.length ≤ size) :
    (bank.overlay start first).overlay start second = bank.overlay start second ↔
      ∀ i (h : i < first.length), second.length ≤ i →
        first[i] = bank.get ⟨start + i, by omega⟩ := by
  constructor
  · intro same i h uncovered
    have inside : start + i < size := by omega
    have outside : ¬ (start ≤ start + i ∧ start + i < start + second.length) := by omega
    calc
      first[i] = (bank.overlay start first).get ⟨start + i, inside⟩ :=
        (bank.get_overlay_inside rfl h).symm
      _ = ((bank.overlay start first).overlay start second).get ⟨start + i, inside⟩ :=
        (get_overlay_outside _ outside).symm
      _ = (bank.overlay start second).get ⟨start + i, inside⟩ := by rw [same]
      _ = bank.get ⟨start + i, inside⟩ := get_overlay_outside _ outside
  · intro same
    refine overlay_eq (fun i j hj hi => (bank.get_overlay_inside hi hj).symm) ?_
    intro i uncovered
    rw [get_overlay_outside _ uncovered]
    by_cases reached : start ≤ i.val ∧ i.val < start + first.length
    · obtain ⟨j, hi⟩ := Nat.exists_eq_add_of_le reached.1
      have hj : j < first.length := by omega
      rw [get_overlay_inside _ hi hj, same j hj (by omega)]
      exact congrArg bank.get (Fin.ext hi.symm)
    · exact get_overlay_outside _ reached

theorem romCapacity_shown : " bytes exceeds program memory capacity of " ++
    (Numeral.decimal romCapacity ++ " bytes") =
      " bytes exceeds program memory capacity of 3584 bytes" := by
  decide +kernel

theorem Fault.message_romTooLarge (size : Nat) : (romTooLarge size).message =
    "ROM of " ++ Numeral.decimal size ++
      " bytes exceeds program memory capacity of 3584 bytes" := by
  rw [← romCapacity_shown, ← String.append_assoc, ← String.append_assoc]
  rfl

namespace Machine

variable {rom first second : List Byte}

theorem respond_load_eq (m : Machine) (rom : List Byte) :
    m.respond (.load rom) = m.settle (m.loadRom rom) := by
  rw [Call.load, respond, mapM_byte?_toNat]

theorem respond_load_large (large : romCapacity < rom.length) (m : Machine) :
    m.respond (.load rom) = (m, .error (.fault (.romTooLarge rom.length))) := by
  rw [respond_load_eq, loadRom_tooLong large]
  rfl

theorem respond_load_error_iff {m : Machine} {failure : Failure} :
    (m.respond (.load rom)).2 = .error failure ↔
      romCapacity < rom.length ∧ failure = .fault (.romTooLarge rom.length) := by
  by_cases fits : rom.length ≤ romCapacity
  · rw [respond_load fits]
    constructor
    · intro h
      cases h
    · rintro ⟨large, -⟩
      exact absurd fits (Nat.not_le.mpr large)
  · rw [respond_load_large (Nat.lt_of_not_le fits)]
    constructor
    · intro h
      cases h
      exact ⟨Nat.lt_of_not_le fits, rfl⟩
    · rintro ⟨-, rfl⟩
      rfl

theorem respondAll_load_load (hf : first.length ≤ romCapacity) (hs : second.length ≤ romCapacity)
    (m : Machine) : m.respondAll [.load first, .load second] = { m with
      memory := (m.memory.overlay programStart first).overlay programStart second
      romSize := second.length } := by
  simp only [respondAll, respond_load hf, respond_load hs]

theorem respondAll_load_load_eq_iff (hf : first.length ≤ romCapacity)
    (hs : second.length ≤ romCapacity) (m : Machine) :
    m.respondAll [.load first, .load second] = m.respondAll [.load second] ↔
      (m.memory.overlay programStart first).overlay programStart second =
        m.memory.overlay programStart second := by
  rw [respondAll_load_load hf hs]
  simp only [respondAll, respond_load hs]
  constructor
  · intro same
    exact congrArg Machine.memory same
  · intro same
    rw [same]

/-- Values that are no bytes are refused first, then a program that is too long, and
both times nothing changes. A program that fits is found in memory from 0x200 on, and
nothing else is new but its size. Of two programs one after the other, the first can
be told only where it is longer and brought something new. -/
theorem load_overlays (m : Machine) :
    (∀ values : List Int, (∃ value ∈ values, ¬ (0 ≤ value ∧ value < 256)) →
      m.respond (.loadRom values) = (m, .error .notAByte)) ∧
    (∀ rom : List Byte,
      (∀ failure, (m.respond (.load rom)).2 = .error failure ↔
        3584 < rom.length ∧ failure = .fault (.romTooLarge rom.length)) ∧
      (Fault.romTooLarge rom.length).message = "ROM of " ++ Numeral.decimal rom.length ++
        " bytes exceeds program memory capacity of 3584 bytes" ∧
      (3584 < rom.length → (m.respond (.load rom)).1 = m) ∧
      (∀ fits : rom.length ≤ 3584, ∃ after, m.respond (.load rom) = (after, .ok .done) ∧
        (∀ i (h : i < rom.length), after.memory.get ⟨0x200 + i, by omega⟩ = rom[i]) ∧
        (∀ a : Fin 4096, ¬ (0x200 ≤ a.val ∧ a.val < 0x200 + rom.length) →
          after.memory.get a = m.memory.get a) ∧
        after = { m with memory := after.memory, romSize := rom.length }) ∧
      ∀ name, m.respond (.loadFile name (.ok rom)) = m.respond (.load rom)) ∧
    ∀ (first second : List Byte) (_ : first.length ≤ 3584) (_ : second.length ≤ 3584),
      (∀ i (h : i < first.length), second.length ≤ i →
        (m.respondAll [.load first, .load second]).memory.get ⟨0x200 + i, by omega⟩ = first[i]) ∧
      (m.respondAll [.load first, .load second] = m.respondAll [.load second] ↔
        ∀ i (h : i < first.length), second.length ≤ i →
          first[i] = m.memory.get ⟨0x200 + i, by omega⟩) := by
  refine ⟨?_, ?_, ?_⟩
  · intro values bad
    rw [respond, mapM_byte?_eq_none bad]
  · intro rom
    refine ⟨fun _ => respond_load_error_iff, Fault.message_romTooLarge _, ?_, ?_,
      fun _ => (respond_load_eq m rom).symm⟩
    · intro large
      rw [respond_load_large large]
    · intro fits
      refine ⟨_, respond_load fits m, ?_, ?_, rfl⟩
      · intro i h
        exact m.memory.get_overlay_inside rfl h
      · intro a outside
        exact m.memory.get_overlay_outside outside
  · intro first second hf hs
    constructor
    · intro i h uncovered
      have outside : ¬ (0x200 ≤ 0x200 + i ∧ 0x200 + i < 0x200 + second.length) := by omega
      rw [respondAll_load_load hf hs]
      exact (Bank.get_overlay_outside _ outside).trans (m.memory.get_overlay_inside rfl h)
    · rw [respondAll_load_load_eq_iff hf hs]
      exact m.memory.overlay_overlay_eq_iff second (Nat.add_le_add_left hf programStart)

/-- What is left of the longer program can be told, unless it is as blank as memory
was before. -/
theorem load_overlays_shorter :
    let m : Machine := { powerOn ⟨0, 0⟩ with memory := .fill 0 }
    m.respondAll [.load [1, 2, 0], .load [9]] ≠ m.respondAll [.load [9]] ∧
      m.respondAll [.load [1, 0, 0], .load [9]] = m.respondAll [.load [9]] := by
  intro m
  have blank (a : Fin 4096) : m.memory.get a = 0 := Bank.get_fill 0 a
  obtain ⟨-, -, twice⟩ := load_overlays m
  constructor
  · intro same
    have left := (twice [1, 2, 0] [9] (by decide) (by decide)).2.mp same 1 (by decide) (by decide)
    rw [blank] at left
    exact absurd left (by decide)
  · refine (twice [1, 0, 0] [9] (by decide) (by decide)).2.mpr ?_
    simp only [blank]
    decide

end Machine

end Chip8
