import Chip8.Bank

/-!
# The keypad

Sixteen keys, each down or up.
-/

namespace Chip8

abbrev Keypad := Bank 16 Bool

namespace Keypad

def pressed (keypad : Keypad) : List (Fin 16) :=
  (List.finRange 16).filter keypad.get

def lowest? (keypad : Keypad) : Option (Fin 16) :=
  (List.finRange 16).find? keypad.get

theorem lowest?_eq_none_iff (keypad : Keypad) :
    keypad.lowest? = none ↔ ∀ key, keypad.get key = false := by
  simp [lowest?, List.find?_eq_none]

end Keypad

end Chip8
