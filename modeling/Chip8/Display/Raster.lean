import Chip8.Display
import Chip8.LongInteger
import Chip8.Text.Numeral
import Chip8.Text.Quoted

/-!
# The screen in color

Lit and unlit pixels get a color each, and every pixel becomes a square of
`scale` by `scale` equal ones, unless that makes more bytes than an array can have.
-/

namespace Chip8

structure Color where
  red : Byte
  green : Byte
  blue : Byte
  deriving DecidableEq

inductive PaintFault where
  | component (value : Int)
  | shape (components pixels : Nat)
  | scale (value : Int)
  deriving DecidableEq

def PaintFault.message : PaintFault → String
  | .component value => LongInteger.outOfBounds value "uint8"
  | .shape components pixels =>
    "shape mismatch: value array of shape (" ++ Numeral.decimal components ++
      ",) could not be broadcast to indexing result of shape (" ++ Numeral.decimal pixels ++ ",3)"
  | .scale value =>
    if LongInteger.Fits value then
      "array is too big; `arr.size * arr.dtype.itemsize` is larger than the maximum possible size."
    else LongInteger.tooLarge

namespace Color

/-- A single component stands for all three. The number of pixels to be
painted is only reported. -/
def ofComponents (components : List Int) (pixels : Nat) : Except PaintFault Color :=
  match components.find? fun value => value < 0 || 255 < value with
  | some value => .error (.component value)
  | none =>
    match components.map (BitVec.ofInt 8) with
    | [grey] => .ok ⟨grey, grey, grey⟩
    | [red, green, blue] => .ok ⟨red, green, blue⟩
    | others => .error (.shape others.length pixels)

end Color

structure Raster where
  width : Nat
  height : Nat
  rows : List (List Color)
  deriving DecidableEq

namespace Display

def stretch {α : Type} (scale : Nat) (items : List α) : List α :=
  items.flatMap (List.replicate scale)

/-- A scale below one counts as one. -/
def paint (display : Display) (scale : Int) (on off : Color) : Raster :=
  let s := (max scale 1).toNat
  { width := 64 * s
    height := 32 * s
    rows := stretch s ((List.finRange 32).map fun y =>
      stretch s ((List.finRange 64).map fun x => if display.pixel x y then on else off)) }

def litCount (display : Display) : Nat :=
  positions.countP fun (x, y) => display.pixel x y

def rasterBytes (scale : Int) : Int :=
  6144 * (max scale 1 * max scale 1)

/-- The lit pixels are painted first, so a fault in their color comes first. The bytes
are counted in a long integer; whether there is room for them is not asked. -/
def raster (display : Display) (scale : Int) (on off : List Int) : Except PaintFault Raster := do
  let lit := display.litCount
  let on ← Color.ofComponents on lit
  let off ← Color.ofComponents off (2048 - lit)
  if LongInteger.Fits (rasterBytes scale) then return display.paint scale on off
  else throw (.scale scale)

end Display

structure ColorScheme where
  name : String
  on : Color
  off : Color
  deriving DecidableEq

namespace ColorScheme

def all : List ColorScheme :=
  [⟨"classic", ⟨0, 255, 0⟩, ⟨0, 0, 0⟩⟩,
   ⟨"amber", ⟨255, 176, 0⟩, ⟨0, 0, 0⟩⟩,
   ⟨"white", ⟨255, 255, 255⟩, ⟨0, 0, 0⟩⟩,
   ⟨"blue", ⟨0, 255, 255⟩, ⟨0, 0, 64⟩⟩,
   ⟨"retro", ⟨255, 255, 0⟩, ⟨64, 0, 64⟩⟩]

def find? (name : String) : Option ColorScheme :=
  all.find? fun scheme => scheme.name = name

def unknownMessage (name : String) : String :=
  "Unknown color scheme '" ++ name ++ "'. Available: [" ++
    ", ".intercalate (all.map fun scheme => quoted scheme.name) ++ "]"

end ColorScheme

end Chip8
