import Chip8.Machine.Execute
import Chip8.Operation.Grammar
import Chip8.Proofs.Machine.Arithmetic
import Mathlib.Data.List.Nodup

/-!
# The instruction set is its grammar

Deciding an operation digit by digit comes to the same as looking for the pattern
that a word fits (`operation_by_grammar`). No word fits two patterns, and the words
that fit none do nothing. Of an integer only the low sixteen bits count.
-/

namespace Chip8

-- ---------------------------------------------------------------------------
-- Digits and numbers
-- ---------------------------------------------------------------------------

namespace Instruction

variable {i : Instruction} {value : Int}

/-- The number is written with the digits of the instruction. -/
def Writes (i : Instruction) (value : Int) : Prop :=
  value = 4096 * i.family + 256 * i.x + 16 * i.y + i.n

theorem ofInt_mod (word : Int) : ofInt (word % 65536) = ofInt word := by
  have bits : BitVec.ofInt 16 (word % 65536) = BitVec.ofInt 16 word := by
    apply BitVec.eq_of_toNat_eq
    simp
  rw [ofInt, bits, ofInt]

theorem Writes.eq (h : i.Writes value) : i = ofInt value := by
  have number : value = (0x1000 * i.family + 0x100 * i.x + 0x10 * i.y + i.n : Nat) := by
    simpa [Writes] using h
  rw [number, ofInt_digits]

theorem writes_toWord (i : Instruction) : i.Writes i.toWord.toNat := by
  have hf := i.family.isLt
  have hx := i.x.isLt
  have hy := i.y.isLt
  have hn := i.n.isLt
  simp only [Writes, toWord, BitVec.toNat_ofNat]
  omega

theorem toNat_toWord_ofInt (word : Int) : ((ofInt word).toWord.toNat : Int) = word % 65536 := by
  rw [ofInt, toWord_ofWord, BitVec.toNat_ofInt]
  omega

theorem writes_ofInt (word : Int) : (ofInt word).Writes (word % 65536) := by
  rw [← toNat_toWord_ofInt]
  exact writes_toWord _

theorem digits_of_byte {y n : Fin 16} (h : i.byte.toNat = 16 * y + n) : i.y = y ∧ i.n = n := by
  rw [toNat_byte] at h
  omega

end Instruction

-- ---------------------------------------------------------------------------
-- Patterns
-- ---------------------------------------------------------------------------

namespace Pattern

variable {i : Instruction} {f x y n : Fin 16}

theorem fits_iff {pattern : Pattern} : pattern.fits i ↔ pattern.family.fits i.family ∧
    pattern.x.fits i.x ∧ pattern.y.fits i.y ∧ pattern.n.fits i.n := by
  simp [fits, and_assoc]

@[simp] theorem fits_familyOnly : (familyOnly f).fits i ↔ i.family = f := by
  simp [fits_iff, familyOnly, Place.fits]

@[simp] theorem fits_lastDigit : (lastDigit f n).fits i ↔ i.family = f ∧ i.n = n := by
  simp [fits_iff, lastDigit, Place.fits]

@[simp] theorem fits_lastTwo : (lastTwo f y n).fits i ↔ i.family = f ∧ i.y = y ∧ i.n = n := by
  simp [fits_iff, lastTwo, Place.fits]

@[simp] theorem fits_exact :
    (exact f x y n).fits i ↔ i.family = f ∧ i.x = x ∧ i.y = y ∧ i.n = n := by
  simp [fits_iff, exact, Place.fits]

def Matches (pattern : Pattern) (value : Int) : Prop :=
  ∃ i : Instruction, i.Writes value ∧ pattern.fits i

theorem Matches.fits {pattern : Pattern} (h : pattern.Matches value) :
    pattern.fits (.ofInt value) := by
  obtain ⟨i, writes, fits⟩ := h
  rwa [← writes.eq]

theorem matches_mod_iff {pattern : Pattern} {word : Int} :
    pattern.Matches (word % 65536) ↔ pattern.fits (.ofInt word) := by
  constructor
  · intro h
    rw [← Instruction.ofInt_mod]
    exact h.fits
  · intro fits
    exact ⟨_, Instruction.writes_ofInt word, fits⟩

end Pattern

-- ---------------------------------------------------------------------------
-- The pattern of an operation
-- ---------------------------------------------------------------------------

namespace Operation

variable {i : Instruction} {op : Operation} {entry other : Pattern × Operation}

theorem nodup_grammar : (grammar.map Prod.snd).Nodup := by decide

theorem noOp_ungrammatical : ∀ entry ∈ grammar, entry.2 ≠ .noOp := by decide

theorem eq_of_mem_grammar (first : entry ∈ grammar) (second : other ∈ grammar)
    (same : entry.2 = other.2) : entry = other :=
  List.inj_on_of_nodup_map nodup_grammar first second same

theorem operation_of_fits (member : entry ∈ grammar) (fits : entry.1.fits i) :
    i.operation = entry.2 := by
  obtain ⟨f, x, y, n⟩ := i
  revert entry f x y n
  simp only [grammar, List.forall_mem_cons, Pattern.fits_familyOnly, Pattern.fits_lastDigit,
    Pattern.fits_lastTwo, Pattern.fits_exact, and_imp, List.not_mem_nil, false_imp_iff,
    implies_true, and_true]
  and_intros
  all_goals
    intros
    subst_vars
    rfl

def Named (i : Instruction) (op : Operation) : Prop :=
  op = .noOp ∨ ∃ pattern, (pattern, op) ∈ grammar ∧ pattern.fits i

theorem Named.family (f : Fin 16) (h : i.family.val = f) (member : (.familyOnly f, op) ∈ grammar) :
    Named i op :=
  .inr ⟨_, member, Pattern.fits_familyOnly.mpr (Fin.ext h)⟩

theorem Named.byte (f y n : Fin 16) (h : i.family.val = f) (hb : i.byte.toNat = 16 * y + n)
    (member : (.lastTwo f y n, op) ∈ grammar) : Named i op :=
  .inr ⟨_, member, Pattern.fits_lastTwo.mpr ⟨Fin.ext h, Instruction.digits_of_byte hb⟩⟩

theorem Named.arithmetic (h : i.family.val = 0x8) (hk : i.arithmetic? = some kind) :
    Named i (.arithmetic kind) := by
  unfold Instruction.arithmetic? at hk
  refine .inr ⟨.lastDigit 0x8 kind.digit, ?_, Pattern.fits_lastDigit.mpr ⟨Fin.ext h, ?_⟩⟩
  · cases kind <;> decide
  · split at hk <;> cases hk <;> exact Fin.ext ‹_›

theorem Named.peripheral (h : i.family.val = 0xF) : Named i i.peripheral := by
  unfold Instruction.peripheral
  split
  · next hb => exact .byte 0xF 0x0 0x7 h hb (by decide)
  · next hb => exact .byte 0xF 0x0 0xA h hb (by decide)
  · next hb => exact .byte 0xF 0x1 0x5 h hb (by decide)
  · next hb => exact .byte 0xF 0x1 0x8 h hb (by decide)
  · next hb => exact .byte 0xF 0x1 0xE h hb (by decide)
  · next hb => exact .byte 0xF 0x2 0x9 h hb (by decide)
  · next hb => exact .byte 0xF 0x3 0x3 h hb (by decide)
  · next hb => exact .byte 0xF 0x5 0x5 h hb (by decide)
  · next hb => exact .byte 0xF 0x6 0x5 h hb (by decide)
  · exact .inl rfl

theorem Named.system (h : i.family.val = 0x0) (y n : Fin 16)
    (ha : i.address.toNat = 16 * y + n) (member : (.exact 0x0 0x0 y n, op) ∈ grammar) :
    Named i op := by
  rw [Instruction.toNat_address] at ha
  exact .inr ⟨_, member, Pattern.fits_exact.mpr ⟨Fin.ext h, by omega⟩⟩

theorem named_operation (i : Instruction) : Named i i.operation := by
  unfold Instruction.operation
  split
  · next h => exact .family 0x1 h (by decide)
  · next h => exact .family 0x2 h (by decide)
  · next h => exact .family 0x3 h (by decide)
  · next h => exact .family 0x4 h (by decide)
  · next h => exact .family 0x5 h (by decide)
  · next h => exact .family 0x6 h (by decide)
  · next h => exact .family 0x7 h (by decide)
  · next h =>
    split
    · next hk => exact .arithmetic h hk
    · exact .inl rfl
  · next h => exact .family 0x9 h (by decide)
  · next h => exact .family 0xA h (by decide)
  · next h => exact .family 0xB h (by decide)
  · next h => exact .family 0xC h (by decide)
  · next h => exact .family 0xD h (by decide)
  · next h =>
    split
    · next hb => exact .byte 0xE 0x9 0xE h hb (by decide)
    · next hb => exact .byte 0xE 0xA 0x1 h hb (by decide)
    · exact .inl rfl
  · next h => exact .peripheral h
  · have h : i.family.val = 0x0 := by
      have := i.family.isLt
      grind
    split
    · next ha => exact .system h 0xE 0x0 ha (by decide)
    · next ha => exact .system h 0xE 0xE ha (by decide)
    · exact .inl rfl

theorem fits_iff_operation (member : entry ∈ grammar) :
    entry.1.fits i ↔ i.operation = entry.2 := by
  refine ⟨operation_of_fits member, fun same => ?_⟩
  rcases named_operation i with none | ⟨pattern, named, fits⟩
  · exact absurd (same.symm.trans none) (noOp_ungrammatical entry member)
  · have : (pattern, i.operation) = entry := eq_of_mem_grammar named member same
    rwa [← this]

theorem noOp_iff : i.operation = .noOp ↔ ∀ entry ∈ grammar, ¬ entry.1.fits i := by
  constructor
  · intro none entry member fits
    exact noOp_ungrammatical entry member ((operation_of_fits member fits).symm.trans none)
  · intro unfit
    rcases named_operation i with none | ⟨pattern, named, fits⟩
    · exact none
    · exact absurd fits (unfit _ named)

end Operation

/-- An integer has the operation of the one pattern, of thirty-four, that its low
sixteen bits match, and does nothing where they match none. Its digits are those of
these bits, and nothing else of it has a part in what it does. -/
theorem Instruction.operation_by_grammar :
    Operation.grammar.length = 34 ∧
    (Operation.grammar.Pairwise fun first second =>
      ∀ value, ¬ (first.1.Matches value ∧ second.1.Matches value)) ∧
    ∀ word : Int,
      let i := ofInt word
      let bits := word % 65536
      (∀ entry ∈ Operation.grammar, entry.1.Matches bits ↔ i.operation = entry.2) ∧
      (i.operation = .noOp ↔ ∀ entry ∈ Operation.grammar, ¬ entry.1.Matches bits) ∧
      (i.operation = .noOp ∨ ∃! entry, entry ∈ Operation.grammar ∧ entry.1.Matches bits) ∧
      bits = 4096 * i.family + 256 * i.x + 16 * i.y + i.n ∧
      (i.toWord.toNat = bits ∧ i.byte.toNat = 16 * i.y + i.n ∧
        i.address.toNat = 256 * i.x + i.byte.toNat) ∧
      ∀ m : Machine, m.execute word = m.execute bits := by
  refine ⟨rfl, ?_, ?_⟩
  · refine List.Pairwise.imp_of_mem ?_ (List.pairwise_map.mp Operation.nodup_grammar)
    rintro first second hfirst hsecond other value ⟨one, two⟩
    have same := Operation.operation_of_fits hfirst one.fits
    exact other (same.symm.trans (Operation.operation_of_fits hsecond two.fits))
  · intro word i bits
    have matches_iff (pattern : Pattern) : pattern.Matches bits ↔ pattern.fits i :=
      Pattern.matches_mod_iff
    simp only [matches_iff]
    refine ⟨fun entry => Operation.fits_iff_operation, Operation.noOp_iff, ?_, writes_ofInt word,
      ⟨toNat_toWord_ofInt word, i.toNat_byte, ?_⟩, ?_⟩
    · refine (Operation.named_operation i).imp id ?_
      rintro ⟨pattern, named, fits⟩
      refine ⟨_, ⟨named, fits⟩, ?_⟩
      rintro other ⟨member, also⟩
      exact Operation.eq_of_mem_grammar member named (Operation.operation_of_fits member also).symm
    · rw [i.toNat_address, i.toNat_byte, Nat.add_assoc]
    · intro m
      have low : ofInt bits = i := ofInt_mod word
      rw [Machine.execute, Machine.execute, low]

/-- Seen as sixteen bits this is F155. -/
theorem Instruction.operation_by_grammar_negative :
    (.lastTwo 0xF 0x5 0x5, .storeRegisters) ∈ Operation.grammar ∧
      (Pattern.lastTwo 0xF 0x5 0x5).Matches (-3755 % 65536) ∧
      (ofInt (-3755)).operation = .storeRegisters := by
  obtain ⟨-, -, words⟩ := operation_by_grammar
  have member : (.lastTwo 0xF 0x5 0x5, .storeRegisters) ∈ Operation.grammar := by decide
  have stored : (Pattern.lastTwo 0xF 0x5 0x5).Matches (-3755 % 65536) :=
    ⟨⟨0xF, 0x1, 0x5, 0x5⟩, rfl, rfl⟩
  exact ⟨member, stored, ((words (-3755)).1 _ member).mp stored⟩

end Chip8
