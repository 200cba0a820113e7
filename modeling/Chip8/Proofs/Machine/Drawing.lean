import Chip8.Proofs.Display.Plot
import Chip8.Proofs.Machine.Perform

/-!
# Drawing a sprite from memory

`plotSprite` is the plain loop on whole machines: rows from the index register
on, columns from the left, each set bit of memory looking at its pixel and then
toggling it. `execute_draw` says that the draw instruction does just that.
-/

namespace Chip8.Machine

def toggle (m : Machine) (x : Fin 64) (y : Fin 32) : Machine :=
  { m with display := m.display.toggle x y }

def plotBit (left : Fin 64) (top : Fin 32) (row : Nat) (m : Machine) (column : Nat) : Machine :=
  let byte := m.memory.get (Fin.ofNat 4096 (m.index.toNat + row))
  if byte.getMsbD column then
    let x := left + Fin.ofNat 64 column
    let y := top + Fin.ofNat 32 row
    let flagged := if m.display.pixel x y then m.setRegister flagRegister 1 else m
    flagged.toggle x y
  else m

def plotRow (left : Fin 64) (top : Fin 32) (m : Machine) (row : Nat) : Machine :=
  (List.range 8).foldl (plotBit left top row) m

/-- The corner is taken from the registers before the flag register is cleared. -/
def plotSprite (m : Machine) (x y n : Fin 16) : Machine :=
  let left := Fin.ofNat 64 (m.registers.get x).toNat
  let top := Fin.ofNat 32 (m.registers.get y).toNat
  (List.range n).foldl (plotRow left top) (m.setRegister flagRegister 0)

def withDrawn (m : Machine) (drawn : Display × Bool) : Machine :=
  { m.setRegister flagRegister (flagByte drawn.2) with display := drawn.1 }

variable {m : Machine} {sprite : Sprite} {left : Fin 64} {top : Fin 32}

theorem bit_loaded (hs : m.memory.load m.index.toNat height = .ok sprite) (h : row < height) :
    sprite.bit row column =
      (m.memory.get (Fin.ofNat 4096 (m.index.toNat + row))).getMsbD column := by
  obtain ⟨hb, rfl⟩ := Memory.load_ok_iff.mp hs
  have hv : Fin.ofNat 4096 (m.index.toNat + row) = ⟨m.index.toNat + row, by omega⟩ :=
    Fin.ext (Nat.mod_eq_of_lt (by omega))
  rw [hv]
  simp [Sprite.bit, h]

-- ---------------------------------------------------------------------------
-- The loop on machines is the loop on screens
-- ---------------------------------------------------------------------------

theorem flag_withDrawn (display : Display) (flag : Bool) :
    (m.withDrawn (display, flag)).setRegister flagRegister 1 = m.withDrawn (display, true) := by
  simp [withDrawn, setRegister, flagByte]

theorem toggle_withDrawn (display : Display) (flag : Bool) (x : Fin 64) (y : Fin 32) :
    (m.withDrawn (display, flag)).toggle x y = m.withDrawn (display.toggle x y, flag) := rfl

theorem plotBit_withDrawn (hs : m.memory.load m.index.toNat height = .ok sprite)
    (h : row < height) (drawn : Display × Bool) (column : Nat) :
    plotBit left top row (m.withDrawn drawn) column =
      m.withDrawn (Display.plotBit sprite left top row column drawn) := by
  obtain ⟨display, flag⟩ := drawn
  have hbit : ((m.withDrawn (display, flag)).memory.get
      (Fin.ofNat 4096 ((m.withDrawn (display, flag)).index.toNat + row))).getMsbD column =
      sprite.bit row column := (bit_loaded hs h).symm
  have hd : (m.withDrawn (display, flag)).display = display := rfl
  simp only [plotBit, Display.plotBit, hbit, hd]
  split
  · cases display.pixel (left + Fin.ofNat 64 column) (top + Fin.ofNat 32 row) with
    | false => rw [if_neg Bool.false_ne_true, toggle_withDrawn, Bool.or_false]
    | true => rw [if_pos rfl, flag_withDrawn, toggle_withDrawn, Bool.or_true]
  · rfl

theorem plotRow_withDrawn (hs : m.memory.load m.index.toNat height = .ok sprite)
    (h : row < height) (drawn : Display × Bool) :
    plotRow left top (m.withDrawn drawn) row =
      m.withDrawn (Display.plotRow sprite left top row drawn) :=
  List.foldl_hom m.withDrawn (plotBit_withDrawn hs h)

theorem plotRows_withDrawn (hs : m.memory.load m.index.toNat height = .ok sprite)
    (h : rows ≤ height) (drawn : Display × Bool) :
    (List.range rows).foldl (plotRow left top) (m.withDrawn drawn) =
      m.withDrawn ((List.range rows).foldl
        (fun drawn row => Display.plotRow sprite left top row drawn) drawn) := by
  induction rows with
  | zero => rfl
  | succ row ih =>
    simp only [List.range_succ, List.foldl_append, List.foldl_cons, List.foldl_nil]
    rw [ih (by omega), plotRow_withDrawn hs (by omega)]

theorem plotSprite_eq {x y n : Fin 16} (hs : m.memory.load m.index.toNat n = .ok sprite) :
    m.plotSprite x y n = m.withDrawn (m.display.plot sprite
      (Fin.ofNat 64 (m.registers.get x).toNat) (Fin.ofNat 32 (m.registers.get y).toNat)) := by
  have hl : sprite.length = n := by
    obtain ⟨_, rfl⟩ := Memory.load_ok_iff.mp hs
    exact List.length_ofFn
  unfold Display.plot
  rw [hl, ← plotRows_withDrawn hs le_rfl]
  rfl

theorem perform_draw_eq {i : Instruction} (h : m.index.toNat + i.n ≤ 4096) :
    m.perform i .draw = .ok (m.plotSprite i.x i.y i.n) := by
  have hs := Memory.load_eq_ok m.memory h
  have hl : i.n.val ≤ 32 := by omega
  rw [plotSprite_eq hs, Display.plot_eq (by rwa [List.length_ofFn])]
  exact perform_draw_ok.mpr ⟨_, hs, rfl⟩

/-- The draw instruction is the plain loop, and that touches only the screen
and the flag register. -/
theorem execute_draw (m : Machine) (x y n : Fin 16) (h : m.index.toNat + n ≤ 4096) :
    m.execute (0xD000 + 0x100 * x + 0x10 * y + n : Nat) = .ok (m.plotSprite x y n) ∧
      m.plotSprite x y n = { m with
        display := (m.plotSprite x y n).display
        registers := m.registers.set flagRegister
          ((m.plotSprite x y n).registers.get flagRegister) } := by
  constructor
  · have hi := Instruction.ofInt_digits 0xD x y n
    unfold execute
    rw [show (0xD000 : Nat) = 0x1000 * (0xD : Fin 16) from rfl, hi]
    exact perform_draw_eq (i := ⟨0xD, x, y, n⟩) h
  · rw [plotSprite_eq (Memory.load_eq_ok m.memory h)]
    simp [withDrawn, setRegister]

/-- A glyph drawn with the flag register for its column. -/
theorem execute_draw_glyph :
    let m : Machine := { powerOn ⟨0, 0⟩ with index := 0x50 }
    0x50 + 5 ≤ 4096 ∧ m.execute (0xD000 + 0x100 * 0xF + 0x10 * 0 + 5 : Nat) =
      .ok (m.plotSprite 0xF 0 5) :=
  ⟨by decide, (execute_draw _ 0xF 0 5 (by decide)).1⟩

end Chip8.Machine
