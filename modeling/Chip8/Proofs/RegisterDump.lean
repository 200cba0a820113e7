import Chip8.Proofs.Text.Integer
import Chip8.RegisterDump

/-!
# What a register dump tells

Every line of a dump is a row of entries, a name and a value each. Neither has a blank,
so that a line reads as its entries (`entries_line`), and a value determines the number
that it shows. Two dumps are therefore the same just when the machines agree on what is
shown of them (`dump_faithful`).
-/

namespace Chip8

theorem Status.name_inj {s t : Status} : s.name = t.name ↔ s = t := by
  cases s <;> cases t <;> decide

theorem Status.blank_not_mem_name (s : Status) : ' ' ∉ s.name.toList := by
  cases s <;> decide

theorem Numeral.decimal_byte_inj {m n : Byte} :
    Numeral.decimal m.toNat = Numeral.decimal n.toNat ↔ m = n := by
  have short (b : Byte) : Integer.Short b.toNat :=
    .of_lt (by decide : 0 < 3) (by omega) (by decide)
  have read (b : Byte) : Integer.ofText? (Numeral.decimal b.toNat) = some (b.toNat : Int) :=
    (Integer.ofText?_decimal _).trans (if_pos (short b))
  refine ⟨fun same => ?_, fun same => congrArg (fun b : Byte => Numeral.decimal b.toNat) same⟩
  have value := (read m).symm.trans ((congrArg Integer.ofText? same).trans (read n))
  exact BitVec.eq_of_toNat_eq (Int.ofNat_inj.mp (Option.some.inj value))

namespace RegisterDump

-- ---------------------------------------------------------------------------
-- Entries
-- ---------------------------------------------------------------------------

structure Entry where
  name : String
  value : String

namespace Entry

def text (entry : Entry) : String :=
  entry.name ++ ": " ++ entry.value

/-- Blanks stand only between the entries and behind the colons. -/
structure Plain (entry : Entry) : Prop where
  name : ' ' ∉ entry.name.toList
  value : ' ' ∉ entry.value.toList

end Entry

def line (entries : List Entry) : String :=
  "  ".intercalate (entries.map Entry.text)

/-- The entries that the words of a line make up. An empty word, which stands between the
two blanks, ends an entry. -/
def group : List (List Char) → List Entry
  | name :: value :: [] :: rest =>
    ⟨String.ofList name.dropLast, String.ofList value⟩ :: group rest
  | [name, value] => [⟨String.ofList name.dropLast, String.ofList value⟩]
  | _ => []

def entries (text : String) : List Entry :=
  group (text.toList.splitOn ' ')

variable {entry : Entry}

theorem splitOn_text (plain : entry.Plain) (rest : List Char) :
    (entry.text.toList ++ rest).splitOn ' ' =
      (entry.name.toList ++ [':']) :: (entry.value.toList ++ rest).splitOn ' ' := by
  have blank : ' ' ∉ entry.name.toList ++ [':'] := by
    simpa using plain.name
  have text : entry.text.toList ++ rest =
      (entry.name.toList ++ [':']) ++ ' ' :: (entry.value.toList ++ rest) := by
    simp [Entry.text]
  rw [text, List.splitOn_append_cons_self_of_not_mem blank]

theorem group_single (name value : String) :
    group [name.toList ++ [':'], value.toList] = [⟨name, value⟩] := by
  simp [group]

theorem entries_line {es : List Entry} (plain : ∀ entry ∈ es, entry.Plain) (hne : es ≠ []) :
    entries (line es) = es := by
  induction es with
  | nil => exact absurd rfl hne
  | cons entry rest ih =>
    obtain ⟨first, later⟩ := List.forall_mem_cons.mp plain
    cases rest with
    | nil =>
      have words := splitOn_text first []
      rw [List.append_nil, List.append_nil, List.splitOn_eq_singleton first.value] at words
      rw [line, List.map_singleton, String.intercalate_singleton, entries, words, group_single]
    | cons next rest =>
      have read := ih later (List.cons_ne_nil _ _)
      have blank : (line (entry :: next :: rest)).toList =
          entry.text.toList ++ ' ' :: ' ' :: (line (next :: rest)).toList := by
        simp [line, String.intercalate_cons_cons]
      rw [entries, blank, splitOn_text first,
        List.splitOn_append_cons_self_of_not_mem first.value, List.splitOn_cons_eq_if_modifyHead]
      simp only [beq_self_eq_true, if_true, group, List.dropLast_concat, String.ofList_toList]
      exact congrArg (entry :: ·) read

-- ---------------------------------------------------------------------------
-- The five lines
-- ---------------------------------------------------------------------------

def marked (name : String) (width n : Nat) : Entry :=
  ⟨name, "$0x" ++ Numeral.hex width n⟩

def registerEntry (m : Machine) (r : Fin 16) : Entry :=
  ⟨"V" ++ Numeral.hex 1 r.val, "$" ++ Numeral.hex 2 (m.registers.get r).toNat⟩

def counterEntries (m : Machine) : List Entry :=
  [marked "PC" 4 m.pc.toNat, marked "SP" 2 m.stack.depth, marked "I" 4 m.index.toNat]

def operandEntries (i : Instruction) : List Entry :=
  [marked "X" 2 i.x, marked "Y" 2 i.y, marked "N" 2 i.n, marked "NN" 2 i.byte.toNat,
    marked "NNN" 4 i.address.toNat]

def timerEntries (m : Machine) : List Entry :=
  [⟨"DT", Numeral.decimal m.delay.toNat⟩, ⟨"ST", Numeral.decimal m.sound.toNat⟩,
    ⟨"Status", m.status.name⟩]

def table (m : Machine) : List (List Entry) :=
  [counterEntries m, operandEntries (.ofWord m.held),
    [0, 1, 2, 3, 4, 5, 6, 7].map (registerEntry m),
    [8, 9, 10, 11, 12, 13, 14, 15].map (registerEntry m), timerEntries m]

theorem text_marked (name : String) (width n : Nat) :
    (marked name width n).text = field name width n := by
  have mark : ": $0x" = ": " ++ "$0x" := rfl
  rw [Entry.text, marked, field, mark]
  simp only [String.append_assoc]

theorem text_registerEntry (m : Machine) (r : Fin 16) :
    (registerEntry m r).text = register m r := by
  have mark : ": $" = ": " ++ "$" := rfl
  rw [Entry.text, registerEntry, register, mark]
  simp only [String.append_assoc]

theorem line_counterEntries (m : Machine) : line (counterEntries m) = counters m := by
  simp only [line, counterEntries, counters, List.map_cons, List.map_nil, text_marked]

theorem line_operandEntries (i : Instruction) : line (operandEntries i) = operands i := by
  simp only [line, operandEntries, operands, List.map_cons, List.map_nil, text_marked]

theorem line_registerEntries (m : Machine) (rs : List (Fin 16)) :
    line (rs.map (registerEntry m)) = row m rs := by
  rw [line, List.map_map, row]
  exact congrArg _ (List.map_congr_left fun r _ => text_registerEntry m r)

theorem line_timerEntries (m : Machine) : line (timerEntries m) = timers m := rfl

theorem lines_eq (m : Machine) : lines m = (table m).map line := by
  rw [lines, ← line_counterEntries, ← line_operandEntries, ← line_registerEntries,
    ← line_registerEntries, ← line_timerEntries]
  rfl

theorem plain_marked {name : String} (h : ' ' ∉ name.toList) (width n : Nat) :
    (marked name width n).Plain := by
  refine ⟨h, ?_⟩
  have mark : ' ' ∉ "$0x".toList := by decide
  simp only [marked, String.toList_append, List.mem_append, not_or]
  exact ⟨mark, Numeral.blank_not_mem_hex width n⟩

theorem plain_registerEntry (m : Machine) (r : Fin 16) : (registerEntry m r).Plain := by
  have letter : ' ' ∉ "V".toList := by decide
  have mark : ' ' ∉ "$".toList := by decide
  constructor
  · simp only [registerEntry, String.toList_append, List.mem_append, not_or]
    exact ⟨letter, Numeral.blank_not_mem_hex 1 r⟩
  · simp only [registerEntry, String.toList_append, List.mem_append, not_or]
    exact ⟨mark, Numeral.blank_not_mem_hex 2 _⟩

theorem plain_counterEntries (m : Machine) : ∀ entry ∈ counterEntries m, entry.Plain := by
  simp only [counterEntries, List.forall_mem_cons]
  exact ⟨plain_marked (by decide) _ _, plain_marked (by decide) _ _, plain_marked (by decide) _ _,
    nofun⟩

theorem plain_operandEntries (i : Instruction) : ∀ entry ∈ operandEntries i, entry.Plain := by
  simp only [operandEntries, List.forall_mem_cons]
  exact ⟨plain_marked (by decide) _ _, plain_marked (by decide) _ _, plain_marked (by decide) _ _,
    plain_marked (by decide) _ _, plain_marked (by decide) _ _, nofun⟩

theorem plain_registerEntries (m : Machine) (rs : List (Fin 16)) :
    ∀ entry ∈ rs.map (registerEntry m), entry.Plain :=
  List.forall_mem_map.mpr fun r _ => plain_registerEntry m r

theorem plain_timerEntries (m : Machine) : ∀ entry ∈ timerEntries m, entry.Plain := by
  have delay : ' ' ∉ "DT".toList := by decide
  have sound : ' ' ∉ "ST".toList := by decide
  have status : ' ' ∉ "Status".toList := by decide
  simp only [timerEntries, List.forall_mem_cons]
  exact ⟨⟨delay, Integer.blank_not_mem_decimal _⟩, ⟨sound, Integer.blank_not_mem_decimal _⟩,
    ⟨status, m.status.blank_not_mem_name⟩, nofun⟩

theorem plain_table (m : Machine) : ∀ row ∈ table m, ∀ entry ∈ row, entry.Plain := by
  intro row h
  simp only [table, List.mem_cons, List.not_mem_nil, or_false] at h
  rcases h with rfl | rfl | rfl | rfl | rfl
  · exact plain_counterEntries m
  · exact plain_operandEntries _
  · exact plain_registerEntries m _
  · exact plain_registerEntries m _
  · exact plain_timerEntries m

theorem entries_lines (m : Machine) : (lines m).map entries = table m := by
  have filled : ∀ row ∈ table m, row ≠ [] := by
    simp [table, counterEntries, operandEntries, timerEntries]
  rw [lines_eq, List.map_map]
  refine List.map_congr_left (fun row h => ?_) |>.trans (List.map_id _)
  exact entries_line (plain_table m row h) (filled row h)

theorem lines_eq_iff {m n : Machine} : lines m = lines n ↔ table m = table n := by
  constructor
  · intro same
    rw [← entries_lines, same, entries_lines]
  · intro same
    rw [lines_eq, same, lines_eq]

-- ---------------------------------------------------------------------------
-- What the entries determine
-- ---------------------------------------------------------------------------

/-- All that a dump shows of the two machines is the same. -/
structure Agree (m n : Machine) : Prop where
  pc : m.pc = n.pc
  depth : m.stack.depth = n.stack.depth
  index : m.index = n.index
  registers : ∀ r, m.registers.get r = n.registers.get r
  delay : m.delay = n.delay
  sound : m.sound = n.sound
  status : m.status = n.status
  operand : m.held.toNat % 4096 = n.held.toNat % 4096

theorem marked_inj {name : String} {width a b : Nat} :
    marked name width a = marked name width b ↔ a = b := by
  simp only [marked, Entry.mk.injEq, true_and, String.append_right_inj, Numeral.hex_inj]

theorem toNat_operand (w : Word) : (Instruction.ofWord w).address.toNat = w.toNat % 4096 := by
  rw [Instruction.toNat_address]
  simp only [Instruction.ofWord]
  omega

/-- The address alone would tell, for the other operands are parts of it. -/
theorem operandEntries_eq_iff {v w : Word} :
    operandEntries (.ofWord v) = operandEntries (.ofWord w) ↔
      v.toNat % 4096 = w.toNat % 4096 := by
  simp only [operandEntries, List.cons.injEq, marked_inj, and_true, toNat_operand]
  refine ⟨fun same => same.2.2.2.2, fun same => ?_⟩
  simp only [Instruction.toNat_byte, Instruction.ofWord]
  omega

theorem registerEntries_eq_iff {m n : Machine} {rs : List (Fin 16)} :
    rs.map (registerEntry m) = rs.map (registerEntry n) ↔
      ∀ r ∈ rs, m.registers.get r = n.registers.get r := by
  simp only [List.map_inj_left, registerEntry, Entry.mk.injEq, true_and, String.append_right_inj,
    Numeral.hex_inj, BitVec.toNat_inj]

theorem table_eq_iff {m n : Machine} : table m = table n ↔ Agree m n := by
  have rows : ∀ r : Fin 16, r ∈ [0, 1, 2, 3, 4, 5, 6, 7] ∨ r ∈ [8, 9, 10, 11, 12, 13, 14, 15] := by
    decide
  simp only [table, counterEntries, timerEntries, List.cons.injEq, Entry.mk.injEq, marked_inj,
    operandEntries_eq_iff, registerEntries_eq_iff, Numeral.decimal_byte_inj, Status.name_inj,
    BitVec.toNat_inj, Fin.val_inj, true_and, and_true]
  constructor
  · rintro ⟨⟨pc, depth, index⟩, operand, low, high, delay, sound, status⟩
    exact ⟨pc, depth, index, fun r => (rows r).elim (low r) (high r), delay, sound, status, operand⟩
  · rintro ⟨pc, depth, index, registers, delay, sound, status, operand⟩
    exact ⟨⟨pc, depth, index⟩, operand, fun r _ => registers r, fun r _ => registers r, delay,
      sound, status⟩

-- ---------------------------------------------------------------------------
-- Columns
-- ---------------------------------------------------------------------------

def column? (text name : String) : Option Nat :=
  ((entries text).find? fun entry => entry.name = name).bind fun entry =>
    Numeral.ofHex? (entry.value.toList.drop 3)

theorem ofHex?_marked (name : String) (width n : Nat) :
    Numeral.ofHex? ((marked name width n).value.toList.drop 3) = some n := by
  have mark : (marked name width n).value.toList.drop 3 = (Numeral.hex width n).toList := by
    rw [marked, String.toList_append]
    rfl
  rw [mark, Numeral.ofHex?_hex]

theorem operand_columns (m : Machine) : ∃ text, (lines m)[1]? = some text ∧
    entries text = operandEntries (.ofWord m.held) := by
  have second : ((lines m).map entries)[1]? = some (operandEntries (.ofWord m.held)) := by
    rw [entries_lines]
    rfl
  rwa [List.getElem?_map, Option.map_eq_some_iff] at second

/-- Dumps are the same just when the machines agree on the counters, the registers, the
timers, the status and the low twelve bits of the held word. These bits are what the five
operands in the second line are cut from. -/
theorem dump_faithful :
    (∀ m n : Machine, lines m = lines n ↔ Agree m n) ∧
    ∀ m : Machine, (lines m).length = 5 ∧ ∃ text x y n nn nnn, (lines m)[1]? = some text ∧
      column? text "X" = some x ∧ column? text "Y" = some y ∧ column? text "N" = some n ∧
      column? text "NN" = some nn ∧ column? text "NNN" = some nnn ∧
      nnn = m.held.toNat % 4096 ∧ nnn = 256 * x + nn ∧ nn = 16 * y + n := by
  refine ⟨fun m n => lines_eq_iff.trans table_eq_iff, fun m => ⟨rfl, ?_⟩⟩
  obtain ⟨text, second, read⟩ := operand_columns m
  let i := Instruction.ofWord m.held
  have column (name : String) (width a : Nat)
      (found : (operandEntries i).find? (fun entry => entry.name = name) =
        some (marked name width a)) : column? text name = some a := by
    rw [column?, read, found, Option.bind_some, ofHex?_marked]
  refine ⟨text, i.x, i.y, i.n, i.byte.toNat, i.address.toNat, second, column _ 2 _ rfl,
    column _ 2 _ rfl, column _ 2 _ rfl, column _ 2 _ rfl, column _ 4 _ rfl, toNat_operand _, ?_,
    i.toNat_byte⟩
  rw [i.toNat_address, i.toNat_byte, Nat.add_assoc]

end RegisterDump

end Chip8
