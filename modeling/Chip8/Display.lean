import Chip8.Bank

/-!
# The screen

64 by 32 pixels, addressed by column and line; coordinates are taken modulo
the size. A sprite is a list of bytes, one for each line from the top down,
the most significant bit at the left. It is drawn by exclusive-or, and what
sticks out at an edge comes in again at the opposite one.
-/

namespace Chip8

structure Display where
  lines : Bank 32 (Bank 64 Bool)
  deriving DecidableEq

abbrev Sprite := List Byte

namespace Display

def pixel (display : Display) (x : Fin 64) (y : Fin 32) : Bool :=
  (display.lines.get y).get x

def ofPixels (f : Fin 64 → Fin 32 → Bool) : Display :=
  ⟨.ofFn fun y => .ofFn fun x => f x y⟩

@[simp] theorem pixel_ofPixels (f : Fin 64 → Fin 32 → Bool) (x : Fin 64) (y : Fin 32) :
    (ofPixels f).pixel x y = f x y := by
  simp [pixel, ofPixels]

theorem ext_pixel {first second : Display} (h : ∀ x y, first.pixel x y = second.pixel x y) :
    first = second := by
  cases first with
  | mk a => cases second with
    | mk b => exact congrArg mk (Bank.ext_get fun y => Bank.ext_get fun x => h x y)

def blank : Display :=
  ⟨.fill (.fill false)⟩

@[simp] theorem pixel_blank (x : Fin 64) (y : Fin 32) : blank.pixel x y = false := by
  simp [pixel, blank]

def positions : List (Fin 64 × Fin 32) :=
  (List.finRange 32).flatMap fun y => (List.finRange 64).map fun x => (x, y)

theorem mem_positions (position : Fin 64 × Fin 32) : position ∈ positions := by
  cases position
  simp [positions]

end Display

namespace Sprite

def bit (sprite : Sprite) (row column : Nat) : Bool :=
  match sprite[row]? with
  | some byte => byte.getMsbD column
  | none => false

/-- Whether the sprite drawn at `(left, top)` sets the pixel: its distance to
the right of and below that corner, around the edges, is the bit to look at. -/
def covers (sprite : Sprite) (left : Fin 64) (top : Fin 32) (x : Fin 64) (y : Fin 32) : Bool :=
  sprite.bit (y - top).val (x - left).val

end Sprite

namespace Display

def draw (display : Display) (sprite : Sprite) (left : Fin 64) (top : Fin 32) : Display :=
  ofPixels fun x y => display.pixel x y ^^ sprite.covers left top x y

def collides (display : Display) (sprite : Sprite) (left : Fin 64) (top : Fin 32) : Bool :=
  positions.any fun (x, y) => display.pixel x y && sprite.covers left top x y

theorem pixel_draw (display : Display) (sprite : Sprite) (left : Fin 64) (top : Fin 32)
    (x : Fin 64) (y : Fin 32) :
    (display.draw sprite left top).pixel x y =
      (display.pixel x y ^^ sprite.covers left top x y) := by
  simp [draw]

theorem collides_eq_true_iff (display : Display) (sprite : Sprite) (left : Fin 64)
    (top : Fin 32) :
    display.collides sprite left top = true ↔
      ∃ x y, display.pixel x y = true ∧ sprite.covers left top x y = true := by
  simp [collides, mem_positions, List.any_eq_true]

end Display

end Chip8
