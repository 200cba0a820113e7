import Chip8.Progress

/-!
# A bar of floating point numbers

A bar that is drawn when it is opened and when it is closed. The drawing computes with
floating point numbers of 64 bits and fails where one of them is out of range.
-/

namespace Chip8

inductive Undrawable where
  | number
  | share
  deriving DecidableEq

def Undrawable.message : Undrawable → String
  | .number => "int too large to convert to float"
  | .share => "integer division result too large for a float"

namespace Progress

/-- The middle between the largest finite number and the next power of two: from here on
numbers are rounded out of range. -/
def limit : Nat :=
  Nat.pow 2 1024 - Nat.pow 2 970

abbrev Finite (value : Int) : Prop :=
  value.natAbs < limit

/-- A share is drawn of a total that has not been passed. -/
abbrev Shared (progress : Progress) : Prop :=
  progress.total ≠ 0 ∧ progress.done ≤ progress.total

def draw (progress : Progress) : Except Undrawable Unit :=
  if ¬ Finite progress.total then .error .number
  else if progress.Shared ∧ limit * progress.total.natAbs ≤ progress.done.natAbs then
    .error .share
  else .ok ()

/-- The last drawing tells also the speed and, of a run that moved, the time that
remains. -/
def drawLast (progress : Progress) : Except Undrawable Unit :=
  if ¬ Finite (progress.done - progress.start) then .error .number
  else if progress.Shared ∧ progress.done ≠ progress.start ∧
      ¬ Finite (progress.total - progress.done) then
    .error .number
  else progress.draw

/-- An advance, drawn before and after if it is to be shown at all; the last drawing is
left out if it is not to stay. -/
def follow (progress : Progress) (count : Int) (shown stays : Bool) :
    Except Undrawable Progress := do
  if shown then progress.draw
  let last := progress.advance count
  if shown ∧ stays then last.drawLast
  return last

end Progress

def Bar.floating : Bar where
  State := Progress
  start progress := (progress.draw.map fun _ => progress).mapError Undrawable.message
  update progress count := (progress.advance count, .ok ())
  close progress := progress.drawLast.mapError Undrawable.message

end Chip8
