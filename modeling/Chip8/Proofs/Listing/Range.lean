import Chip8.Monitor
import Chip8.Proofs.Machine.Perform
import Chip8.Proofs.Text.Numeral
import Mathlib.Data.Rat.Floor

/-!
# Which lines a range has

From any first address and to any limit, a listing has a line for every second
address whose word ends before the limit and before the end of memory
(`range_lines`). Below zero the bytes are counted from the end of memory, and below
the first of them a range that is not empty fails at once.
-/

namespace Chip8.Listing

variable {memory : Memory} {start address : Int} {count : Nat} {w : Word}

-- ---------------------------------------------------------------------------
-- Words
-- ---------------------------------------------------------------------------

/-- The cell is the one with this number, counted from the end of memory if below zero. -/
def Names (index : Int) (cell : Fin 4096) : Prop :=
  cell = if index < 0 then index + 4096 else index

def Holds (memory : Memory) (address : Int) (w : Word) : Prop :=
  ∃ high low, Names address high ∧ Names (address + 1) low ∧
    w = memory.get high ++ memory.get low

theorem Names.eq {cell : Fin 4096} (names : Names index cell) (least : 0 ≤ index)
    (most : index.toNat < 4096) : cell = ⟨index.toNat, most⟩ := by
  rw [Names, if_neg (Int.not_lt.mpr least)] at names
  apply Fin.ext
  simp only
  omega

theorem byte_names (memory : Memory) (least : -4096 ≤ index) (most : index < 4096) :
    ∃ cell, Names index cell ∧ byte memory index = .ok (memory.get cell) := by
  refine ⟨_, ?_, if_pos ⟨least, most⟩⟩
  simp only [Names, Fin.ofNat]
  split <;> omega

theorem byte_below (below : index < -4096) : byte memory index = .error ⟨index⟩ :=
  if_neg fun inside => absurd inside.1 (Int.not_le.mpr below)

theorem word_holds (memory : Memory) (least : -4096 ≤ address) (most : address < 4095) :
    ∃ w, Holds memory address w ∧ word memory address = .ok w := by
  have next : -4096 ≤ address + 1 := by omega
  obtain ⟨high, hhigh, first⟩ := byte_names memory least (by omega)
  obtain ⟨low, hlow, second⟩ := byte_names memory next (by omega)
  refine ⟨_, ⟨high, low, hhigh, hlow, rfl⟩, ?_⟩
  rw [word, first, second]
  rfl

theorem Holds.word_eq (h : Holds memory address w) (least : 0 ≤ address) (most : address < 4095) :
    memory.word address = .ok w := by
  obtain ⟨high, low, hhigh, hlow, rfl⟩ := h
  have next : (address + 1).toNat = address.toNat + 1 := by omega
  rw [Memory.word, dif_pos ⟨least, Int.add_lt_of_lt_sub_right most⟩, hhigh.eq least (by omega),
    hlow.eq (by omega) (by omega)]
  simp only [next]

-- ---------------------------------------------------------------------------
-- Lines
-- ---------------------------------------------------------------------------

def addressColumn (text : String) : String :=
  String.ofList ((text.toList.drop 3).takeWhile (· ≠ ' '))

theorem addressColumn_line (address word : Int) :
    addressColumn (line address word) = Numeral.hex 4 address := by
  have text : ∃ rest, (line address word).toList =
      "$0x".toList ++ ((Numeral.hex 4 address).toList ++ ' ' :: rest) := by
    simp only [line, String.toList_append, List.append_assoc]
    exact ⟨_, rfl⟩
  obtain ⟨rest, text⟩ := text
  have plain : ∀ c ∈ (Numeral.hex 4 address).toList, decide (c ≠ ' ') = true := fun c hc =>
    decide_eq_true fun blank => Numeral.blank_not_mem_hex 4 address (blank ▸ hc)
  have mark : "$0x".toList.length = 3 := rfl
  rw [addressColumn, text, List.drop_left' mark, List.takeWhile_append_of_pos plain,
    List.takeWhile_cons_of_neg (by simp), List.append_nil, String.ofList_toList]

theorem linesFrom_holds (memory : Memory) (least : -4096 ≤ start)
    (most : start + 2 * count ≤ 4096) :
    ∃ lines, linesFrom memory start count = .ok lines ∧ lines.length = count ∧
      ∀ (i : Nat) (h : i < lines.length), ∃ w, Holds memory (start + 2 * i) w ∧
        lines[i] = line (start + 2 * i) w.toNat := by
  induction count generalizing start with
  | zero => exact ⟨[], rfl, rfl, nofun⟩
  | succ count ih =>
    have next : -4096 ≤ start + 2 := by omega
    obtain ⟨w, holds, read⟩ := word_holds memory least (by omega)
    obtain ⟨rest, listed, length, later⟩ := ih next (by omega)
    refine ⟨line start w.toNat :: rest, ?_, by simp [length], ?_⟩
    · rw [linesFrom, read, listed]
      rfl
    · rintro (_ | i) h
      · exact ⟨w, by simpa using holds, by simp⟩
      · have place : start + 2 * (i + 1 : Nat) = start + 2 + 2 * i := by omega
        rw [place]
        exact later i (Nat.lt_of_succ_lt_succ h)

theorem linesFrom_below (below : start < -4096) :
    linesFrom memory start (count + 1) = .error ⟨start⟩ := by
  rw [linesFrom, word, byte_below below]
  rfl

-- ---------------------------------------------------------------------------
-- Ranges
-- ---------------------------------------------------------------------------

theorem ceil_half (d : Int) : ⌈(d : ℚ) / 2⌉ = (d + 1) / 2 := by
  have h := Rat.ceil_intCast_div_natCast d 2
  push_cast at h
  rw [h]
  omega

theorem range_below (below : start < -4096) (room : start < min stop 4096 - 1) :
    range memory start stop = .error ⟨start⟩ := by
  obtain ⟨count, some⟩ : ∃ count, ((min stop 4096 - start) / 2).toNat = count + 1 :=
    Nat.exists_eq_add_one.mpr (by omega)
  rw [range, some, linesFrom_below below]

theorem range_holds (memory : Memory) (inside : -4096 ≤ start ∨ min stop 4096 - 1 ≤ start) :
    ∃ lines, range memory start stop = .ok lines ∧
      lines.length = ((min stop 4096 - start) / 2).toNat ∧
      ∀ (i : Nat) (h : i < lines.length), ∃ w, Holds memory (start + 2 * i) w ∧
        lines[i] = line (start + 2 * i) w.toNat := by
  by_cases room : start < min stop 4096 - 1
  · exact linesFrom_holds memory (by omega) (by omega)
  · -- no line is asked for, so that the range may start anywhere
    have none : ((min stop 4096 - start) / 2).toNat = 0 := by omega
    rw [range, none]
    exact ⟨[], rfl, rfl, nofun⟩

theorem range_error_iff : range memory start stop = .error bad ↔
    start < -4096 ∧ start < min stop 4096 - 1 ∧ bad.index = start := by
  constructor
  · intro failed
    by_cases fails : start < -4096 ∧ start < min stop 4096 - 1
    · rw [range_below fails.1 fails.2] at failed
      cases failed
      exact ⟨fails.1, fails.2, rfl⟩
    · have inside : -4096 ≤ start ∨ min stop 4096 - 1 ≤ start := by omega
      obtain ⟨lines, listed, _⟩ := range_holds memory inside
      rw [listed] at failed
      contradiction
  · rintro ⟨below, room, rfl⟩
    exact range_below below room

/-- A range fails only below the first byte, and then only if it is not empty; otherwise
it has its lines, each with the word at its address. The address column shows the address
with its sign, and nothing about the machine changes. -/
theorem range_lines (memory : Memory) (start : Int) (stop : Option Int) :
    let limit := min (stop.getD 4096) 4096
    let listed := range memory start (stop.getD 4096)
    (∀ bad, listed = .error bad ↔ start < -4096 ∧ start < limit - 1 ∧ bad.index = start) ∧
    (¬(start < -4096 ∧ start < limit - 1) → ∃ lines, listed = .ok lines ∧
      (lines.length : Int) = max 0 ⌈((limit - 1 - start : Int) : ℚ) / 2⌉ ∧
      ∀ (i : Nat) (h : i < lines.length), let address := start + 2 * i
        address ≤ 4094 ∧
        (∃ w, Holds memory address w ∧ (0 ≤ address → memory.word address = .ok w) ∧
          lines[i] = line address w.toNat) ∧
        addressColumn lines[i] = if address < 0 then "-" ++ Numeral.hex 3 (-address)
          else Numeral.hex 4 address) ∧
    (∀ (m : Machine) (programOnly : Bool), (m.respond (.disassemble programOnly)).1 = m) ∧
    ∀ (monitor : Monitor) (programOnly : Bool),
      (monitor.respond (.disassemble programOnly)).monitor = monitor := by
  intro limit listed
  refine ⟨fun bad => range_error_iff, fun succeeds => ?_, fun m programOnly => ?_,
    fun monitor programOnly => ?_⟩
  · have inside : -4096 ≤ start ∨ limit - 1 ≤ start := by omega
    obtain ⟨lines, result, length, holds⟩ := range_holds memory inside
    refine ⟨lines, result, ?_, fun i h => ?_⟩
    · rw [length, ceil_half]
      omega
    · obtain ⟨w, word, shown⟩ := holds i h
      have last : start + 2 * i ≤ 4094 := by omega
      refine ⟨last, ⟨w, word, fun least => word.word_eq least (by omega), shown⟩, ?_⟩
      rw [shown, addressColumn_line]
      split
      · next below => exact Numeral.hex_negative below 3
      · rfl
  · rw [Machine.respond]
    split <;> rfl
  · rw [Monitor.respond]
    split <;> rfl

/-- The word at -1 is made of the last byte of memory and the first. -/
theorem range_lines_around :
    let memory := ((Bank.fill 0 : Memory).set 4095 0x12).set 0 0x34
    ∃ lines, range memory (-1) 2 = .ok lines ∧ ∃ h : 0 < lines.length,
      lines[0] = line (-1) 0x1234 ∧ addressColumn lines[0] = "-" ++ Numeral.hex 3 1 := by
  intro memory
  obtain ⟨lines, result, length, each⟩ := (range_lines memory (-1) (some 2)).2.1 (by decide)
  rw [ceil_half] at length
  have some : 0 < lines.length := by
    simp only [Option.getD_some] at length
    omega
  obtain ⟨_, ⟨w, ⟨high, low, hhigh, hlow, rfl⟩, _, shown⟩, sign⟩ := each 0 some
  have last : high.val = 4095 := by
    simp only [Names] at hhigh
    omega
  have first : low.val = 0 := by
    simp only [Names] at hlow
    omega
  have value : memory.get high ++ memory.get low = (0x1234 : Word) := by
    have apart : (0 : Fin 4096) ≠ 4095 := by decide
    rw [show high = 4095 from Fin.ext last, show low = 0 from Fin.ext first, Bank.get_set_self,
      Bank.get_set_of_ne _ apart, Bank.get_set_self]
    rfl
  rw [value] at shown
  exact ⟨lines, result, some, shown, sign⟩

end Chip8.Listing
