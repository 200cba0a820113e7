import Chip8.Display.Plot
import Mathlib.Algebra.Group.Fin.Basic

/-!
# Drawing at once and drawing bit by bit

`plot_eq`: visiting the bits of a sprite one after the other gives the screen
and the flag that `draw` and `collides` compute from all pixels at once. The
sprite must not be higher than the screen, or a bit would come back to a pixel
of an earlier one.

`Plotted` is the invariant of both loops. It is carried through the columns of
a row by `Plotted.nextBit` and from row to row by `Plotted.nextRow`.
-/

namespace Chip8

/-- Counting from an origin around the edge, exactly one place is so far away. -/
theorem offset_eq_iff {size : Nat} [@NeZero Nat Zero.ofOfNat0 size] {origin place : Fin size}
    (h : offset < size) : (place - origin).val = offset ↔ origin + Fin.ofNat size offset = place := by
  have hv : (Fin.ofNat size offset).val = offset := Nat.mod_eq_of_lt h
  conv_lhs => rw [← hv]
  rw [← Fin.ext_iff, sub_eq_iff_eq_add', eq_comm]

namespace Sprite

theorem bit_lt_length {sprite : Sprite} (h : sprite.bit row column = true) :
    row < sprite.length := by
  unfold bit at h
  split at h
  · next hb => exact (List.getElem?_eq_some_iff.mp hb).1
  · cases h

theorem bit_lt_eight {sprite : Sprite} (h : sprite.bit row column = true) : column < 8 := by
  unfold bit at h
  split at h
  · exact BitVec.lt_of_getMsbD h
  · cases h

def coversBefore (sprite : Sprite) (left : Fin 64) (top : Fin 32) (row column : Nat)
    (x : Fin 64) (y : Fin 32) : Bool :=
  sprite.covers left top x y &&
    ((y - top).val < row || ((y - top).val = row && (x - left).val < column))

variable {sprite : Sprite} {left x : Fin 64} {top y : Fin 32}

theorem coversBefore_start : sprite.coversBefore left top 0 0 x y = false := by
  simp [coversBefore]

theorem target_iff (hr : row < 32) (hc : column < 64) :
    left + Fin.ofNat 64 column = x ∧ top + Fin.ofNat 32 row = y ↔
      (x - left).val = column ∧ (y - top).val = row := by
  rw [offset_eq_iff hc, offset_eq_iff hr]

theorem coversBefore_target (hr : row < 32) (hc : column < 64) :
    sprite.coversBefore left top row column (left + Fin.ofNat 64 column)
      (top + Fin.ofNat 32 row) = false := by
  obtain ⟨hx, hy⟩ : (left + Fin.ofNat 64 column - left).val = column ∧
      (top + Fin.ofNat 32 row - top).val = row := (target_iff hr hc).mp ⟨rfl, rfl⟩
  rw [coversBefore, hx, hy]
  simp only [Nat.lt_irrefl, decide_false, Bool.and_false, Bool.or_false]

theorem coversBefore_next (hr : row < 32) (hc : column < 64) :
    sprite.coversBefore left top row (column + 1) x y =
      (sprite.coversBefore left top row column x y || (sprite.bit row column &&
        decide (left + Fin.ofNat 64 column = x ∧ top + Fin.ofNat 32 row = y))) := by
  simp only [target_iff hr hc]
  by_cases h : (x - left).val = column ∧ (y - top).val = row
  · simp [coversBefore, covers, h.1, h.2]
  · unfold coversBefore
    rw [Bool.eq_iff_iff]
    simp only [Bool.or_eq_true, Bool.and_eq_true, decide_eq_true_eq]
    grind

theorem coversBefore_row :
    sprite.coversBefore left top row 8 x y = sprite.coversBefore left top (row + 1) 0 x y := by
  unfold coversBefore
  cases h : sprite.covers left top x y with
  | false => rfl
  | true =>
    have hc : (x - left).val < 8 := bit_lt_eight h
    rw [Bool.eq_iff_iff]
    simp [hc]
    omega

theorem coversBefore_end :
    sprite.coversBefore left top sprite.length 0 x y = sprite.covers left top x y := by
  unfold coversBefore
  cases h : sprite.covers left top x y with
  | false => rfl
  | true => simpa using bit_lt_length h

end Sprite

namespace Display

/-- Screen and flag when the loops come to `(row, column)`: the bits before it
have toggled their pixels, and the flag tells of those that were lit. -/
structure Plotted (display : Display) (sprite : Sprite) (left : Fin 64) (top : Fin 32)
    (row column : Nat) (drawn : Display × Bool) : Prop where
  pixel : ∀ x y, drawn.1.pixel x y =
    (display.pixel x y ^^ sprite.coversBefore left top row column x y)
  flag : drawn.2 = true ↔
    ∃ x y, display.pixel x y = true ∧ sprite.coversBefore left top row column x y = true

variable {display : Display} {sprite : Sprite} {left : Fin 64} {top : Fin 32}
  {drawn : Display × Bool}

theorem Plotted.start : Plotted display sprite left top 0 0 (display, false) where
  pixel x y := by simp [Sprite.coversBefore_start]
  flag := by simp [Sprite.coversBefore_start]

theorem Plotted.fresh (h : Plotted display sprite left top row column drawn)
    (hr : row < 32) (hc : column < 64) :
    drawn.1.pixel (left + Fin.ofNat 64 column) (top + Fin.ofNat 32 row) =
      display.pixel (left + Fin.ofNat 64 column) (top + Fin.ofNat 32 row) := by
  rw [h.pixel, Sprite.coversBefore_target hr hc, Bool.xor_false]

theorem Plotted.nextBit (h : Plotted display sprite left top row column drawn)
    (hr : row < 32) (hc : column < 64) :
    Plotted display sprite left top row (column + 1)
      (plotBit sprite left top row column drawn) := by
  unfold plotBit
  cases hb : sprite.bit row column with
  | false =>
    have hnext : ∀ x y, sprite.coversBefore left top row (column + 1) x y =
        sprite.coversBefore left top row column x y := by
      intro x y
      rw [Sprite.coversBefore_next hr hc, hb, Bool.false_and, Bool.or_false]
    refine ⟨fun x y => ?_, ?_⟩
    · rw [hnext]
      exact h.pixel x y
    · simp only [hnext]
      exact h.flag
  | true =>
    have hnext : ∀ x y, sprite.coversBefore left top row (column + 1) x y =
        (sprite.coversBefore left top row column x y ||
          decide (left + Fin.ofNat 64 column = x ∧ top + Fin.ofNat 32 row = y)) := by
      intro x y
      rw [Sprite.coversBefore_next hr hc, hb, Bool.true_and]
    simp only [↓reduceIte]
    refine ⟨fun x y => ?_, ?_⟩
    · rw [pixel_toggle, hnext]
      split
      · next ht =>
        obtain ⟨rfl, rfl⟩ := ht
        rw [h.fresh hr hc, Sprite.coversBefore_target hr hc, decide_eq_true ⟨rfl, rfl⟩,
          Bool.false_or, Bool.xor_true]
      · next ht => rw [h.pixel, decide_eq_false ht, Bool.or_false]
    · simp only [hnext, Bool.or_eq_true, h.flag, h.fresh hr hc, decide_eq_true_eq]
      constructor
      · rintro (⟨x, y, hl, hv⟩ | hl)
        · exact ⟨x, y, hl, .inl hv⟩
        · exact ⟨_, _, hl, .inr ⟨rfl, rfl⟩⟩
      · rintro ⟨x, y, hl, hv | ⟨rfl, rfl⟩⟩
        · exact .inl ⟨x, y, hl, hv⟩
        · exact .inr hl

theorem Plotted.nextRow (h : Plotted display sprite left top row 0 drawn) (hr : row < 32) :
    Plotted display sprite left top (row + 1) 0 (plotRow sprite left top row drawn) := by
  have columns : ∀ column ≤ 8, Plotted display sprite left top row column
      ((List.range column).foldl (fun drawn column => plotBit sprite left top row column drawn)
        drawn) := by
    intro column
    induction column with
    | zero => exact fun _ => h
    | succ column ih =>
      intro hc
      rw [List.range_succ, List.foldl_append]
      exact (ih (by omega)).nextBit hr (by omega)
  obtain ⟨hpixel, hflag⟩ := columns 8 le_rfl
  simp only [Sprite.coversBefore_row] at hpixel hflag
  exact ⟨hpixel, hflag⟩

theorem Plotted.rows (hr : row ≤ 32) : Plotted display sprite left top row 0
    ((List.range row).foldl (fun drawn row => plotRow sprite left top row drawn)
      (display, false)) := by
  induction row with
  | zero => exact .start
  | succ row ih =>
    rw [List.range_succ, List.foldl_append]
    exact (ih (by omega)).nextRow (by omega)

theorem plot_eq (h : sprite.length ≤ 32) :
    display.plot sprite left top =
      (display.draw sprite left top, display.collides sprite left top) := by
  have hend : Plotted display sprite left top sprite.length 0 (display.plot sprite left top) :=
    Plotted.rows h
  refine Prod.ext (ext_pixel fun x y => ?_) (Bool.eq_iff_iff.mpr ?_)
  · rw [hend.pixel, Sprite.coversBefore_end, pixel_draw]
  · simp only [hend.flag, Sprite.coversBefore_end, collides_eq_true_iff]

end Display

end Chip8
