import Chip8.Text.Numeral

/-!
# Progress

How far a long run has come, in frames, and the bar that shows it. What a bar looks
like and when it is drawn is its own affair: a run opens it, updates it after every
frame and closes it (`Bar`).
-/

namespace Chip8

structure Progress where
  description : String
  total : Int
  unit : String
  start : Int
  done : Int
  deriving DecidableEq

namespace Progress

def frames (total : Int) (description : Option String) (start : Int) : Progress where
  description := description.getD ("Running (" ++ Numeral.grouped total ++ " frames)")
  total := total
  unit := "frame"
  start := start
  done := start

def advance (progress : Progress) (count : Int) : Progress :=
  { progress with done := progress.done + count }

end Progress

/-- A bar may fail at every turn, with a complaint; an update that fails may still have
moved it. -/
structure Bar where
  State : Type
  start : Progress → Except String State
  update : State → Int → State × Except String Unit
  close : State → Except String Unit

namespace Bar

def advance (bar : Bar) : Option bar.State → Option bar.State × Except String Unit
  | none => (none, .ok ())
  | some state =>
    let updated := bar.update state 1
    (some updated.1, updated.2)

def finish (bar : Bar) : Option bar.State → Except String Unit
  | none => .ok ()
  | some state => bar.close state

end Bar

end Chip8
