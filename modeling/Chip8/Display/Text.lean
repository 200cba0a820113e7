import Chip8.Display

/-!
# The screen as text

One line of text for each line of the screen, a text of the caller's choice
for each pixel.
-/

namespace Chip8.Display

def textLine (display : Display) (on off : String) (y : Fin 32) : String :=
  String.join ((List.finRange 64).map fun x => if display.pixel x y then on else off)

def text (display : Display) (on off : String) : String :=
  "\n".intercalate ((List.finRange 32).map (display.textLine on off))

end Chip8.Display
