import Chip8.Listing
import Chip8.Log

/-!
# Tracing

A tracer makes an entry of every instruction that is executed: its listing
line, at the tracer's level. It counts them all, printed or not.
-/

namespace Chip8

structure Tracer where
  level : String
  count : Nat
  deriving DecidableEq

namespace Tracer

def start (level : String) : Tracer :=
  ⟨level, 0⟩

def record (tracer : Tracer) (address word : Int) : Tracer × Entry :=
  ({ tracer with count := tracer.count + 1 }, ⟨tracer.level, Listing.line address word⟩)

def recordAll (tracer : Tracer) : List (Int × Int) → Tracer × List Entry
  | [] => (tracer, [])
  | (address, word) :: rest =>
    let (next, entry) := tracer.record address word
    let (last, entries) := next.recordAll rest
    (last, entry :: entries)

/-- A tracer without a logger of its host's prints through one of its own,
which lets everything at its level pass. -/
def ownLogger (level : String) : Logger :=
  { name := "Trace", threshold := .ofName level, colored := false, stamped := true }

end Tracer

end Chip8
