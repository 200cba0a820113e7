import Chip8.Display

/-!
# Drawing one pixel after another

The bits of a sprite are visited line by line from the left. Each one that is
set toggles its pixel; the flag records whether one of them was lit when its
turn came.
-/

namespace Chip8.Display

def toggle (display : Display) (x : Fin 64) (y : Fin 32) : Display :=
  ⟨display.lines.set y ((display.lines.get y).set x (!display.pixel x y))⟩

theorem pixel_toggle (display : Display) (x i : Fin 64) (y j : Fin 32) :
    (display.toggle x y).pixel i j =
      if x = i ∧ y = j then !display.pixel i j else display.pixel i j := by
  simp only [toggle, pixel, Bank.get_set]
  by_cases hy : y = j
  · subst hy
    by_cases hx : x = i
    · subst hx; simp
    · simp [hx, Bank.get_set]
  · simp [hy]

def plotBit (sprite : Sprite) (left : Fin 64) (top : Fin 32) (row column : Nat)
    (drawn : Display × Bool) : Display × Bool :=
  if sprite.bit row column then
    let x := left + Fin.ofNat 64 column
    let y := top + Fin.ofNat 32 row
    (drawn.1.toggle x y, drawn.2 || drawn.1.pixel x y)
  else drawn

def plotRow (sprite : Sprite) (left : Fin 64) (top : Fin 32) (row : Nat)
    (drawn : Display × Bool) : Display × Bool :=
  (List.range 8).foldl (fun drawn column => plotBit sprite left top row column drawn) drawn

def plot (display : Display) (sprite : Sprite) (left : Fin 64) (top : Fin 32) :
    Display × Bool :=
  (List.range sprite.length).foldl (fun drawn row => plotRow sprite left top row drawn)
    (display, false)

end Chip8.Display
