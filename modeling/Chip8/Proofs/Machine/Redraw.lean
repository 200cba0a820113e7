import Chip8.Proofs.Display.Pixels
import Chip8.Proofs.Machine.Drawing
import Chip8.Proofs.Machine.Run
import Mathlib.Algebra.Ring.Parity

/-!
# Drawing over what is there

A draw instruction toggles the pixels of its sprite and tells in the flag register
whether one of them was lit: `m.drawn i` is the machine after it. What it adds to the
screen can be counted (`draw_counts`). As long as no corner is taken from the flag
register, nothing that a draw instruction changes matters to the next one: the same
sprite drawn again is gone (`draw_twice`), and of many the order makes no difference
(`draws_by_parity`).
-/

namespace Chip8.Machine

def flag (m : Machine) : Byte :=
  m.registers.get flagRegister

def spriteAt (m : Machine) (height : Nat) : Sprite :=
  List.ofFn fun row : Fin height => m.memory.get (Fin.ofNat 4096 (m.index.toNat + row))

def corner (m : Machine) (i : Instruction) : Fin 64 × Fin 32 :=
  (Fin.ofNat 64 (m.registers.get i.x).toNat, Fin.ofNat 32 (m.registers.get i.y).toNat)

def spriteBits (m : Machine) (i : Instruction) : Finset (Nat × Nat) :=
  (m.spriteAt i.n).bits

def litBits (m : Machine) (i : Instruction) : Finset (Nat × Nat) :=
  (m.spriteBits i).filter fun place =>
    let p := Sprite.target (m.corner i).1 (m.corner i).2 place
    m.display.pixel p.1 p.2 = true

def spritePixels (m : Machine) (i : Instruction) : Finset (Fin 64 × Fin 32) :=
  (m.spriteAt i.n).pixels (m.corner i).1 (m.corner i).2

def drawn (m : Machine) (i : Instruction) : Machine :=
  m.withDrawn
    (m.display.draw (m.spriteAt i.n) (m.corner i).1 (m.corner i).2,
      m.display.collides (m.spriteAt i.n) (m.corner i).1 (m.corner i).2)

def Redrawn (m after : Machine) : Prop :=
  after = { m with
    display := after.display
    registers := m.registers.set flagRegister after.flag }

variable {m after last : Machine} {i : Instruction} {word : Int}

-- ---------------------------------------------------------------------------
-- One draw instruction
-- ---------------------------------------------------------------------------

theorem flagByte_eq_one_iff {flag : Bool} : flagByte flag = 1 ↔ flag = true := by
  cases flag with
  | false => decide
  | true => decide

theorem flagByte_eq_zero_iff {flag : Bool} : flagByte flag = 0 ↔ flagByte flag ≠ 1 := by
  cases flag with
  | false => decide
  | true => decide

theorem flag_drawn (m : Machine) (i : Instruction) : (m.drawn i).flag =
    flagByte (m.display.collides (m.spriteAt i.n) (m.corner i).1 (m.corner i).2) :=
  Bank.get_set_self ..

theorem length_spriteAt (m : Machine) (i : Instruction) : (m.spriteAt i.n).length ≤ 32 := by
  rw [spriteAt, List.length_ofFn]
  omega

theorem load_spriteAt {height : Nat} (fits : m.index.toNat + height ≤ 4096) :
    m.memory.load m.index.toNat height = .ok (m.spriteAt height) := by
  rw [Memory.load_eq_ok m.memory fits, spriteAt]
  congr 2
  funext row
  have inside : m.index.toNat + row.val < 4096 := by omega
  exact congrArg m.memory.get (Fin.ext (Nat.mod_eq_of_lt inside).symm)

theorem execute_drawn (draws : (Instruction.ofInt word).operation = .draw)
    (fits : m.index.toNat + (Instruction.ofInt word).n ≤ 4096) :
    m.execute word = .ok (m.drawn (.ofInt word)) := by
  rw [execute, draws]
  exact perform_draw_ok.mpr ⟨_, load_spriteAt fits, rfl⟩

theorem flag_drawn_iff :
    (m.drawn i).flag = 1 ↔ ∃ p ∈ m.spritePixels i, m.display.pixel p.1 p.2 = true := by
  rw [flag_drawn, flagByte_eq_one_iff, Display.collides_iff (m.length_spriteAt i)]
  rfl

theorem pixel_drawn (m : Machine) (i : Instruction) (x : Fin 64) (y : Fin 32) :
    (m.drawn i).display.pixel x y =
      (m.display.pixel x y ^^ decide ((x, y) ∈ m.spritePixels i)) := by
  refine (Display.pixel_draw ..).trans ?_
  simp only [spritePixels, Sprite.mem_pixels_iff (m.length_spriteAt i), Bool.decide_eq_true]

theorem card_litBits (m : Machine) (i : Instruction) :
    ((m.spritePixels i).filter fun p => m.display.pixel p.1 p.2 = true).card =
      (m.litBits i).card :=
  Sprite.card_filter_pixels (m.length_spriteAt i) _

theorem flag_drawn_iff_card : (m.drawn i).flag = 1 ↔ 0 < (m.litBits i).card := by
  rw [flag_drawn_iff, ← card_litBits, Finset.card_pos]
  simp only [Finset.Nonempty, Finset.mem_filter]

theorem card_lit_drawn (m : Machine) (i : Instruction) :
    (m.drawn i).display.lit.card + 2 * (m.litBits i).card =
      m.display.lit.card + (m.spriteBits i).card := by
  rw [← card_litBits]
  exact Display.card_lit_draw (m.length_spriteAt i)

/-- The lit pixels before and after, counted. With `b` bits set in the sprite and `h` of
them on lit pixels, `b - 2 h` are added, and the flag register is clear if and only if
that is all of `b`. -/
theorem draw_counts (draws : (Instruction.ofInt word).operation = .draw)
    (fits : m.index.toNat + (Instruction.ofInt word).n ≤ 4096) :
    ∃ after, m.execute word = .ok after ∧
      (after.display.lit.card : Int) =
        m.display.lit.card + (m.spriteBits (.ofInt word)).card -
          2 * (m.litBits (.ofInt word)).card ∧
      (after.flag = 1 ↔ 0 < (m.litBits (.ofInt word)).card) ∧
      (after.flag = 0 ↔
        after.display.lit.card = m.display.lit.card + (m.spriteBits (.ofInt word)).card) := by
  have counted := m.card_lit_drawn (.ofInt word)
  refine ⟨_, execute_drawn draws fits, by omega, flag_drawn_iff_card, ?_⟩
  have clear : (m.drawn (.ofInt word)).flag = 0 ↔ ¬ 0 < (m.litBits (.ofInt word)).card := by
    rw [← flag_drawn_iff_card, flag_drawn]
    exact flagByte_eq_zero_iff
  rw [clear]
  omega

theorem draw_counts_corner :
    let m : Machine := { powerOn ⟨0, 0⟩ with
      index := 0x50
      display := .ofPixels fun x _ => x = 0
      registers := (Bank.fill 30).set flagRegister 62 }
    m.index.toNat + (Instruction.ofInt 0xDF05).n ≤ 4096 ∧
      ∃ after, m.execute 0xDF05 = .ok after ∧
        (after.display.lit.card : Int) = m.display.lit.card + 10 ∧ after.flag = 1 := by
  intro m
  have draws : (Instruction.ofInt 0xDF05).operation = .draw := by decide
  have fits : m.index.toNat + (Instruction.ofInt 0xDF05).n ≤ 4096 := by decide
  have bits : (m.spriteBits (.ofInt 0xDF05)).card = 14 := by decide +kernel
  have hits : (m.litBits (.ofInt 0xDF05)).card = 2 := by
    simp only [litBits, m, Display.pixel_ofPixels]
    decide +kernel
  obtain ⟨after, run, counted, collides, -⟩ := draw_counts draws fits
  refine ⟨fits, after, run, ?_, ?_⟩
  · rw [bits, hits] at counted
    omega
  · rw [collides, hits]
    decide

-- ---------------------------------------------------------------------------
-- One after the other
-- ---------------------------------------------------------------------------

/-- A word that draws a sprite inside memory and takes no corner from the flag register. -/
structure SteadyDraw (m : Machine) (word : Int) : Prop where
  draws : (Instruction.ofInt word).operation = .draw
  fits : m.index.toNat + (Instruction.ofInt word).n ≤ 4096
  x : (Instruction.ofInt word).x ≠ flagRegister
  y : (Instruction.ofInt word).y ≠ flagRegister

instance (m : Machine) (word : Int) : Decidable (m.SteadyDraw word) :=
  decidable_of_iff
    ((Instruction.ofInt word).operation = .draw ∧
      m.index.toNat + (Instruction.ofInt word).n ≤ 4096 ∧
      (Instruction.ofInt word).x ≠ flagRegister ∧ (Instruction.ofInt word).y ≠ flagRegister)
    ⟨fun ⟨draws, fits, x, y⟩ => ⟨draws, fits, x, y⟩,
      fun ⟨draws, fits, x, y⟩ => ⟨draws, fits, x, y⟩⟩

namespace Redrawn

theorem refl (m : Machine) : m.Redrawn m := by
  simp [Redrawn, flag]

theorem drawn (m : Machine) (i : Instruction) : m.Redrawn (m.drawn i) := by
  simp [Redrawn, flag, Machine.drawn, withDrawn, setRegister]

theorem eq (h : m.Redrawn after) : after = { m with
    display := after.display
    registers := m.registers.set flagRegister after.flag } := h

theorem trans (first : m.Redrawn after) (second : after.Redrawn last) : m.Redrawn last := by
  have replaced := congrArg
    (fun before : Machine => { before with
      display := last.display
      registers := before.registers.set flagRegister last.flag }) first.eq
  refine second.eq.trans (replaced.trans ?_)
  simp only [Bank.set_set]

theorem memory (h : m.Redrawn after) : after.memory = m.memory := by
  rw [h.eq]

theorem index (h : m.Redrawn after) : after.index = m.index := by
  rw [h.eq]

theorem register (h : m.Redrawn after) (hr : r ≠ flagRegister) :
    after.registers.get r = m.registers.get r := by
  rw [h.eq]
  exact Bank.get_set_of_ne _ hr.symm _

theorem spriteAt (h : m.Redrawn after) (height : Nat) :
    after.spriteAt height = m.spriteAt height := by
  rw [Machine.spriteAt, h.memory, h.index]
  rfl

theorem corner (h : m.Redrawn after) (steady : m.SteadyDraw word) :
    after.corner (.ofInt word) = m.corner (.ofInt word) := by
  rw [Machine.corner, h.register steady.x, h.register steady.y]
  rfl

theorem spritePixels (h : m.Redrawn after) (steady : m.SteadyDraw word) :
    after.spritePixels (.ofInt word) = m.spritePixels (.ofInt word) := by
  rw [Machine.spritePixels, h.spriteAt, h.corner steady]
  rfl

theorem steady (h : m.Redrawn after) (steady : m.SteadyDraw word) : after.SteadyDraw word := by
  refine { steady with fits := ?_ }
  rw [h.index]
  exact steady.fits

end Redrawn

theorem SteadyDraw.execute (steady : m.SteadyDraw word) :
    m.execute word = .ok (m.drawn (.ofInt word)) :=
  execute_drawn steady.draws steady.fits

theorem SteadyDraw.display_drawn_drawn (steady : m.SteadyDraw word) :
    ((m.drawn (.ofInt word)).drawn (.ofInt word)).display = m.display := by
  have first := Redrawn.drawn m (.ofInt word)
  rw [Machine.drawn, first.spriteAt, first.corner steady]
  exact Display.draw_draw ..

theorem SteadyDraw.flag_drawn_drawn (steady : m.SteadyDraw word) :
    ((m.drawn (.ofInt word)).drawn (.ofInt word)).flag = 1 ↔
      ∃ p ∈ m.spritePixels (.ofInt word), m.display.pixel p.1 p.2 = false := by
  rw [flag_drawn_iff, (Redrawn.drawn m (.ofInt word)).spritePixels steady]
  refine exists_congr fun p => and_congr_right fun covered => ?_
  rw [pixel_drawn, decide_eq_true covered, Bool.xor_true, Bool.not_eq_true']

/-- Drawn twice, a sprite leaves no trace but in the flag register, and there the second
collision tells that a pixel was dark at the start. Only a sprite that has no bit set
collides neither time. -/
theorem draw_twice (steady : m.SteadyDraw word) :
    ∃ once twice, m.execute word = .ok once ∧ once.execute word = .ok twice ∧
      twice = m.setRegister flagRegister twice.flag ∧
      (twice.flag = 1 ↔
        ∃ p ∈ m.spritePixels (.ofInt word), m.display.pixel p.1 p.2 = false) ∧
      (once.flag = 1 ∨ twice.flag = 1 ↔
        ∃ byte ∈ m.spriteAt (Instruction.ofInt word).n, byte ≠ 0) := by
  have first := Redrawn.drawn m (.ofInt word)
  have both := first.trans (Redrawn.drawn _ (.ofInt word))
  refine ⟨_, _, steady.execute, (first.steady steady).execute, ?_, ?_, ?_⟩
  · refine both.eq.trans ?_
    rw [steady.display_drawn_drawn]
    rfl
  · exact steady.flag_drawn_drawn
  · have some_bit : (m.spritePixels (.ofInt word)).Nonempty ↔
        ∃ byte ∈ m.spriteAt (Instruction.ofInt word).n, byte ≠ 0 := Sprite.pixels_nonempty
    rw [flag_drawn_iff, steady.flag_drawn_drawn, ← some_bit]
    constructor
    · rintro (⟨p, covered, -⟩ | ⟨p, covered, -⟩)
      · exact ⟨p, covered⟩
      · exact ⟨p, covered⟩
    · rintro ⟨p, covered⟩
      cases before : m.display.pixel p.1 p.2 with
      | true => exact .inl ⟨p, covered, before⟩
      | false => exact .inr ⟨p, covered, before⟩

/-- A glyph across the edges, over a lit column. -/
theorem draw_twice_corner :
    let m : Machine := { powerOn ⟨0, 0⟩ with
      index := 0x50
      display := .ofPixels fun x _ => x = 0
      registers := .fill 62 }
    m.SteadyDraw 0xD015 ∧ ∃ once, m.execute 0xD015 = .ok once ∧
      once.execute 0xD015 = .ok (m.setRegister flagRegister 1) := by
  intro m
  have steady : m.SteadyDraw 0xD015 := by decide
  obtain ⟨once, twice, first, second, restored, dark, -⟩ := draw_twice steady
  have covered : ((62, 30) : Fin 64 × Fin 32) ∈ m.spritePixels (.ofInt 0xD015) := by
    decide +kernel
  have flag : twice.flag = 1 := dark.mpr ⟨(62, 30), covered, by simp [m]⟩
  refine ⟨steady, once, first, ?_⟩
  rw [second, restored, flag]

/-- A run of draw instructions toggles each pixel as often as it is covered. -/
theorem executeAll_steady {words : List Int} (steady : ∀ word ∈ words, m.SteadyDraw word) :
    ∃ after, m.executeAll words = .ok after ∧ m.Redrawn after ∧
      ∀ x y, after.display.pixel x y = (m.display.pixel x y ^^
        decide (Odd (words.countP fun word => (x, y) ∈ m.spritePixels (.ofInt word)))) := by
  induction words generalizing m with
  | nil => exact ⟨m, rfl, .refl m, by simp⟩
  | cons word rest ih =>
    obtain ⟨first, later⟩ := List.forall_mem_cons.mp steady
    have redrawn := Redrawn.drawn m (.ofInt word)
    obtain ⟨after, run, kept, pixels⟩ := ih fun word hw => redrawn.steady (later word hw)
    refine ⟨after, (executeAll_cons first.execute rest).trans run, redrawn.trans kept, ?_⟩
    intro x y
    -- the sprites to come are those of the start: none of them is read from what was drawn
    have same : rest.countP (fun other =>
          (x, y) ∈ (m.drawn (.ofInt word)).spritePixels (.ofInt other)) =
        rest.countP fun other => (x, y) ∈ m.spritePixels (.ofInt other) :=
      List.countP_congr fun other ho => by rw [redrawn.spritePixels (later other ho)]
    rw [pixels, same, pixel_drawn, List.countP_cons]
    by_cases covered : (x, y) ∈ m.spritePixels (.ofInt word)
    · simp only [covered, decide_true, if_true, Bool.xor_true, Nat.odd_add_one, decide_not,
        Bool.not_xor, Bool.xor_not]
    · simp only [covered, decide_false, Bool.false_eq_true, if_false, Bool.xor_false, Nat.add_zero]

/-- However many sprites are drawn and however they overlap, a pixel changes if an odd
number of them cover it. So the order makes no difference to the screen, and nothing
changes besides but the flag register. -/
theorem draws_by_parity {words : List Int} (steady : ∀ word ∈ words, m.SteadyDraw word) :
    ∃ after, m.executeAll words = .ok after ∧
      (∀ x y, after.display.pixel x y = (m.display.pixel x y ^^
        decide (Odd (words.countP fun word => (x, y) ∈ m.spritePixels (.ofInt word))))) ∧
      after = { m with
        display := after.display
        registers := m.registers.set flagRegister after.flag } ∧
      ∀ permuted, words.Perm permuted → ∃ last, m.executeAll permuted = .ok last ∧
        last = { m with
          display := after.display
          registers := m.registers.set flagRegister last.flag } := by
  obtain ⟨after, run, kept, pixels⟩ := executeAll_steady steady
  refine ⟨after, run, pixels, kept.eq, ?_⟩
  intro permuted perm
  obtain ⟨last, otherwise, unmoved, repainted⟩ :=
    executeAll_steady fun word hw => steady word (perm.mem_iff.mpr hw)
  have display : last.display = after.display :=
    Display.ext_pixel fun x y => by rw [repainted, pixels, perm.countP_eq]
  refine ⟨last, otherwise, ?_⟩
  rw [← display]
  exact unmoved.eq

/-- Three glyphs in two orders. All of them cover the pixel `(1, 0)`, two `(0, 0)`. -/
theorem draws_by_parity_overlapping :
    let m : Machine := { powerOn ⟨0, 0⟩ with
      index := 0x50
      registers := (Bank.fill 62).set 1 64 }
    (∀ word ∈ [0xD005, 0xD015, 0xD115], m.SteadyDraw word) ∧
      ∃ after last, m.executeAll [0xD005, 0xD015, 0xD115] = .ok after ∧
        m.executeAll [0xD115, 0xD005, 0xD015] = .ok last ∧ last.display = after.display ∧
        after.display.pixel 1 0 = true ∧ after.display.pixel 0 0 = false := by
  intro m
  have steady : ∀ word ∈ [0xD005, 0xD015, 0xD115], m.SteadyDraw word := by decide
  obtain ⟨after, run, pixels, -, reordered⟩ := draws_by_parity steady
  obtain ⟨last, otherwise, same⟩ := reordered [0xD115, 0xD005, 0xD015] (by decide)
  refine ⟨steady, after, last, run, otherwise, ?_, ?_, ?_⟩
  · rw [same]
  · rw [pixels]
    decide +kernel
  · rw [pixels]
    decide +kernel

end Chip8.Machine
