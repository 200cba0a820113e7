import Chip8.Proofs.Machine.Restart
import Chip8.Proofs.Text.Numeral

/-!
# A listing loses nothing

Every line has three columns of fixed width, which the longest name just fits, and
the words of a listing are the program again (`listing_lossless`): two machines
with the same full listing have the same program memory.
-/

namespace Chip8

-- ---------------------------------------------------------------------------
-- A line
-- ---------------------------------------------------------------------------

theorem Operation.length_mnemonic_le (op : Operation) : op.mnemonic.toList.length ≤ 18 := by
  cases op with
  | skip condition => cases condition <;> decide
  | arithmetic kind => cases kind <;> decide
  | _ => decide

namespace Listing

def nameOf (text : String) : String :=
  String.ofList ((text.toList.drop 11).take 18)

/-- The columns of the line read as this address, this word and the name of this
operation, which is the one that the word is dispatched to. -/
structure Shows (text : String) (address : Nat) (word : Word) (op : Operation) : Prop where
  addressColumn : addressOf? text = some address
  nameColumn : nameOf text = Numeral.padEnd 18 op.mnemonic
  wordColumn : wordOf? text = some word.toNat
  dispatched : op = (Instruction.ofWord word).operation
  performed : ∀ m : Machine, m.execute word.toNat = m.perform (.ofWord word) op
  length : text.length = 39

theorem length_name (op : Operation) : (Numeral.padEnd 18 op.mnemonic).toList.length = 18 := by
  rw [Numeral.padEnd, String.toList_ofList, List.length_rightpad]
  exact Nat.max_eq_left op.length_mnemonic_le

theorem column {before text after : List Char} (hb : before.length = start)
    (ht : text.length = width) : ((before ++ text ++ after).drop start).take width = text := by
  rw [List.append_assoc, List.drop_left' hb, List.take_left' ht]

theorem columns {address name word : List Char} (ha : address.length = 4)
    (hn : name.length = 18) (hw : word.length = 4) :
    let text := "$0x".toList ++ address ++ "    ".toList ++ name ++ "  (0x".toList ++ word ++
      ")".toList
    (text.drop 3).take 4 = address ∧ (text.drop 11).take 18 = name ∧
      (text.drop 34).take 4 = word ∧ text.length = 39 := by
  intro text
  have first : text = "$0x".toList ++ address ++
      ("    ".toList ++ name ++ "  (0x".toList ++ word ++ ")".toList) := by
    simp only [text, List.append_assoc]
  have second : text = "$0x".toList ++ address ++ "    ".toList ++ name ++
      ("  (0x".toList ++ word ++ ")".toList) := by
    simp only [text, List.append_assoc]
  refine ⟨?_, ?_, column (by simp [ha, hn]) hw, by simp [text, ha, hn, hw]⟩
  · rw [first, column (by rfl) ha]
  · rw [second, column (by simp [ha]) hn]

theorem line_shows {address : Nat} (ha : address < 0x10000) (word : Word) :
    Shows (line address word.toNat) address word (Instruction.ofWord word).operation := by
  have text : (line address word.toNat).toList =
      "$0x".toList ++ (Numeral.hex 4 address).toList ++ "    ".toList ++
        (Numeral.padEnd 18 (Instruction.ofWord word).operation.mnemonic).toList ++
        "  (0x".toList ++ (Numeral.hex 4 word.toNat).toList ++ ")".toList := by
    rw [line, Instruction.ofInt_toNat]
    simp only [String.toList_append]
  obtain ⟨haddress, hname, hword, hlength⟩ := columns (Numeral.length_hex (by decide) ha)
    (length_name (Instruction.ofWord word).operation)
    (Numeral.length_hex (by decide) word.isLt)
  refine ⟨?_, ?_, ?_, rfl, fun m => m.execute_word word, ?_⟩
  · rw [addressOf?, text, haddress, Numeral.ofHex?_hex]
  · rw [nameOf, text, hname, String.ofList_toList]
  · rw [wordOf?, text, hword, Numeral.ofHex?_hex]
  · rw [← String.length_toList, text, hlength]

-- ---------------------------------------------------------------------------
-- Ranges in memory
-- ---------------------------------------------------------------------------

variable {memory : Memory} {start count : Nat}

def wordAt (memory : Memory) (address : Nat) : Word :=
  memory.get (Fin.ofNat 4096 address) ++ memory.get (Fin.ofNat 4096 (address + 1))

theorem byte_eq {address : Nat} (h : address < 4096) :
    byte memory address = .ok (memory.get (Fin.ofNat 4096 address)) := by
  have index : ((address : Int) % 4096).toNat = address := by omega
  rw [byte, if_pos (by omega), index]

theorem word_eq {address : Nat} (h : address + 1 < 4096) :
    word memory address = .ok (wordAt memory address) := by
  have next : (address : Int) + 1 = (address + 1 : Nat) := rfl
  rw [word, byte_eq (Nat.lt_of_succ_lt h), next, byte_eq h]
  rfl

theorem linesFrom_eq (h : start + 2 * count ≤ 4096) : linesFrom memory start count =
    .ok ((List.range count).map fun i =>
      line (start + 2 * i : Nat) (wordAt memory (start + 2 * i)).toNat) := by
  induction count generalizing start with
  | zero => rfl
  | succ count ih =>
    have next : (start : Int) + 2 = (start + 2 : Nat) := rfl
    rw [linesFrom, word_eq (by omega), next, ih (by omega), List.range_succ_eq_map]
    simp only [List.map_cons, List.map_map, Function.comp_def, Nat.mul_add_one,
      Nat.add_right_comm start 2, ← Nat.add_assoc]
    rfl

def bytes? (lines : List String) : Option (List Byte) :=
  (lines.mapM wordOf?).map fun words =>
    words.flatMap fun word => [BitVec.ofNat 8 (word / 256), BitVec.ofNat 8 word]

theorem append_halves (high low : Byte) :
    BitVec.ofNat 8 ((high ++ low).toNat / 256) = high ∧ BitVec.ofNat 8 (high ++ low).toNat = low := by
  have hlow := low.isLt
  have sum : (high ++ low).toNat = high.toNat * 256 + low.toNat := by
    rw [BitVec.toNat_append, ← Nat.shiftLeft_add_eq_or_of_lt low.isLt, Nat.shiftLeft_eq]
  rw [sum]
  constructor
  · rw [show (high.toNat * 256 + low.toNat) / 256 = high.toNat by omega, BitVec.ofNat_toNat,
      BitVec.setWidth_eq]
  · apply BitVec.eq_of_toNat_eq
    rw [BitVec.toNat_ofNat]
    omega

theorem bytes?_cons (h : wordOf? text = some (high ++ low : Word).toNat) (rest : List String) :
    bytes? (text :: rest) = (bytes? rest).map fun bytes => high :: low :: bytes := by
  obtain ⟨hhigh, hlow⟩ := append_halves high low
  rw [bytes?, List.mapM_cons, h]
  cases hrest : rest.mapM wordOf? with
  | none => simp [bytes?, hrest]
  | some words => simp [bytes?, hrest, hhigh, hlow]

theorem drop_toList {address : Nat} (h : address < 4096) : memory.toList.drop address =
    memory.get (Fin.ofNat 4096 address) :: memory.toList.drop (address + 1) := by
  have index : Fin.ofNat 4096 address = ⟨address, h⟩ := Fin.ext (Nat.mod_eq_of_lt h)
  rw [List.drop_eq_getElem_cons (by rwa [Bank.length_toList]), Bank.getElem_toList, index]

theorem bytes?_linesFrom (h : start + 2 * count ≤ 4096)
    (listed : linesFrom memory start count = .ok lines) :
    bytes? lines = some ((memory.toList.drop start).take (2 * count)) := by
  induction count generalizing start lines with
  | zero =>
    cases listed
    rfl
  | succ count ih =>
    rw [linesFrom, word_eq (by omega)] at listed
    obtain ⟨_, hw, listed⟩ := bind_ok_iff.mp listed
    obtain ⟨rest, hrest, hlines⟩ := bind_ok_iff.mp listed
    have shown := (line_shows (by omega : start < 0x10000) (wordAt memory start)).wordColumn
    have next : (start : Int) + 2 = (start + 2 : Nat) := rfl
    have later : start + 2 + 2 * count ≤ 4096 := by omega
    have first : start + 1 < 4096 := by omega
    rw [next] at hrest
    rw [← Except.ok.inj hw] at hlines
    rw [pure_ok_iff.mp hlines, bytes?_cons shown, ih later hrest,
      drop_toList (Nat.lt_of_succ_lt first), drop_toList first]
    rfl

end Listing

-- ---------------------------------------------------------------------------
-- The program
-- ---------------------------------------------------------------------------

namespace Machine

variable {m : Machine}

def programLines (m : Machine) (count : Nat) : List String :=
  (List.range count).map fun i =>
    Listing.line (programStart + 2 * i : Nat) (Listing.wordAt m.memory (programStart + 2 * i)).toNat

theorem linesFrom_program (h : count ≤ 1792) :
    Listing.linesFrom m.memory programStart count = .ok (m.programLines count) :=
  Listing.linesFrom_eq (Nat.add_le_add_left (Nat.mul_le_mul_left 2 h) programStart)

theorem listing_full (m : Machine) : m.listing false = .ok (m.programLines 1792) :=
  linesFrom_program (Nat.le_refl 1792)

theorem listing_program {size : Nat} (hm : m.romSize = size) (h : size ≤ romCapacity) :
    m.listing true = .ok (m.programLines (size / 2)) := by
  have hsize : size ≤ 3584 := h
  have count : ((min ((programStart : Int) + size) 4096 - programStart) / 2).toNat = size / 2 := by
    have hstart : (programStart : Int) = 512 := rfl
    omega
  rw [listing, if_pos rfl, hm, Listing.range, count]
  exact linesFrom_program (by omega)

theorem bytes?_programLines (h : count ≤ 1792) : Listing.bytes? (m.programLines count) =
    some ((m.memory.toList.drop programStart).take (2 * count)) :=
  Listing.bytes?_linesFrom (Nat.add_le_add_left (Nat.mul_le_mul_left 2 h) programStart)
    (linesFrom_program h)

theorem programLines_prefix (m : Machine) (h : first ≤ second) :
    m.programLines first <+: m.programLines second := by
  have range : List.range first <+: List.range second := by
    rw [← Nat.min_eq_left h, ← List.take_range]
    exact List.take_prefix first _
  exact range.map _

theorem programLines_shows (h : count ≤ 1792) (i : Nat) (hi : i < (m.programLines count).length) :
    ∃ word op, Listing.Shows (m.programLines count)[i] (programStart + 2 * i) word op := by
  have hlt : i < count := by simpa [programLines] using hi
  have haddress : programStart + 2 * i < 0x10000 := by
    have hstart : programStart = 512 := rfl
    omega
  simp only [programLines, List.getElem_map, List.getElem_range]
  exact ⟨_, _, Listing.line_shows haddress _⟩

theorem take_overlay {memory : Memory} {rom : List Byte} (fits : rom.length ≤ romCapacity)
    (h : count ≤ rom.length) :
    ((memory.overlay programStart rom).toList.drop programStart).take count = rom.take count := by
  have hsize : rom.length ≤ 3584 := fits
  have hstart : programStart = 512 := rfl
  refine List.ext_getElem ?_ fun i hi hr => ?_
  · simp only [List.length_take, List.length_drop, Bank.length_toList]
    omega
  · have hlt : i < rom.length := by
      simp only [List.length_take] at hr
      omega
    simp only [List.getElem_take, List.getElem_drop, Bank.getElem_toList]
    exact memory.get_overlay_inside rfl hlt

/-- The full listing has a line for every word of program memory and reads as its
bytes; the listing of a loaded program is the beginning of it and reads as the
program, but for the last byte of one with an odd number of them. Memory below the
program is in no listing. -/
theorem listing_lossless :
    (∀ m : Machine, ∃ full, m.listing false = .ok full ∧ full.length = 1792 ∧
      (∀ (i : Nat) (h : i < full.length), ∃ word op, Listing.Shows full[i] (0x200 + 2 * i) word op) ∧
      Listing.bytes? full = some (m.memory.toList.drop 0x200)) ∧
    (∀ (m : Machine) (rom : List Byte), rom.length ≤ 3584 → ∃ loaded full program,
      m.loadRom rom = .ok loaded ∧ loaded.listing false = .ok full ∧
      loaded.listing true = .ok program ∧ program <+: full ∧ program.length = rom.length / 2 ∧
      Listing.bytes? program = some (rom.take (2 * (rom.length / 2)))) ∧
    ∀ m n : Machine, m.listing false = n.listing false →
      ∀ a : Fin 4096, 0x200 ≤ a.val → m.memory.get a = n.memory.get a := by
  have whole (m : Machine) : (m.memory.toList.drop programStart).take (2 * 1792) =
      m.memory.toList.drop programStart :=
    List.take_of_length_le (by simp [programStart])
  refine ⟨fun m => ⟨_, m.listing_full, by simp [programLines], ?_, ?_⟩, fun m rom fits => ?_, ?_⟩
  · exact programLines_shows (Nat.le_refl 1792)
  · rw [bytes?_programLines (Nat.le_refl 1792), whole]
    rfl
  · have half : 2 * (rom.length / 2) ≤ rom.length := Nat.mul_div_le rom.length 2
    have count : rom.length / 2 ≤ 1792 := by omega
    refine ⟨_, _, _, loadRom_fitting fits m, listing_full _, listing_program rfl fits,
      programLines_prefix _ count, by simp [programLines], ?_⟩
    rw [bytes?_programLines count, take_overlay fits half]
  · intro m n same a ha
    rw [listing_full, listing_full] at same
    have bytes := congrArg Listing.bytes? (Except.ok.inj same)
    rw [bytes?_programLines (Nat.le_refl 1792), bytes?_programLines (Nat.le_refl 1792), whole,
      whole] at bytes
    have byte (memory : Memory) : (memory.toList.drop programStart)[a.val - 0x200]? =
        some (memory.get a) := by
      have index : programStart + (a.val - 0x200) = a.val := Nat.add_sub_cancel' ha
      rw [List.getElem?_drop, index, List.getElem?_eq_getElem (by simp), Bank.getElem_toList]
    rw [← Option.some.injEq, ← byte, ← byte, Option.some.inj bytes]

/-- The last byte of an odd program is not shown. The other two machines differ in
their keys only. -/
theorem listing_lossless_odd :
    (∃ loaded full program, (powerOn ⟨0, 0⟩).loadRom [0x6A, 0x02, 0xDA, 0xB5, 0x12] = .ok loaded ∧
      loaded.listing false = .ok full ∧ loaded.listing true = .ok program ∧ program <+: full ∧
      program.length = 2 ∧ Listing.bytes? program = some [0x6A, 0x02, 0xDA, 0xB5]) ∧
    (powerOn ⟨0, 0⟩).memory.get 0xFFF = (powerOn ⟨0, 1⟩).memory.get 0xFFF :=
  ⟨listing_lossless.2.1 _ _ (by decide), listing_lossless.2.2 _ _ rfl 0xFFF (by decide)⟩

end Machine

end Chip8
