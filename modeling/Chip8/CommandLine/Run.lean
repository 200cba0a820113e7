import Chip8.CommandLine.Options
import Chip8.Display.Text
import Chip8.Monitor
import Chip8.Progress
import Chip8.RegisterDump

/-!
# Running a program from the command line

A run loads a file, then either lists it or executes it for a number of frames, with a
bar beside them if one is wanted, and shows what was asked for. Its output is data: log
entries, which a logger may suppress, and lines, which are always printed. A setting that
is empty ends the run where it is needed, as does a bar that fails (`Abort`).
-/

namespace Chip8

namespace CommandLine

inductive Output where
  | entry (logged : Entry)
  | line (text : String)
  deriving DecidableEq

def Output.print (logger : Logger) (stamp : String) : Output → String
  | .entry logged => logger.print stamp logged
  | .line text => text ++ "\n"

def told (log : List Notice) : List Output :=
  log.map fun notice => .entry notice.entry

/-- What ends a run without an exit status of its own. -/
inductive Abort where
  | noLevel
  | noSeed
  | seedTooLarge
  | badName
  | noTotal
  | undrawable (complaint : String)
  | noCount
  deriving DecidableEq

def Abort.message : Abort → String
  | .noLevel => "'list' object has no attribute 'upper'"
  | .noSeed =>
    "PRNGKey accepts a scalar seed, but was given an array of shape (0,) != (). " ++
      "Use jax.vmap for batching"
  | .seedTooLarge => LongInteger.tooLarge
  | .badName => FileError.nullInName.message
  | .noTotal => "unsupported format string passed to list.__format__"
  | .undrawable complaint => complaint
  | .noCount => "'list' object cannot be interpreted as an integer"

inductive Ending where
  | exit (status : Nat)
  | abort (cause : Abort)
  deriving DecidableEq

structure Outcome where
  ending : Ending
  output : List Output
  deriving DecidableEq

/-- A bar that cannot be closed is all that is complained of. -/
def Ending.closing (ending : Ending) (closed : Except String Unit) : Ending :=
  match closed with
  | .ok () => ending
  | .error complaint => .abort (.undrawable complaint)

/-- What the frames have come to, with the bar as it then is; they end well with the
last of them. -/
structure Played (State : Type) where
  monitor : Monitor
  bar : Option State
  log : List Notice
  ending : Ending

end CommandLine

def Monitor.play (monitor : Monitor) (bar : Bar) (clocks : Int) (state : Option bar.State) :
    Nat → CommandLine.Played bar.State
  | 0 => ⟨monitor, state, [], .exit 0⟩
  | n + 1 =>
    let first := monitor.respond (.frame clocks)
    match first.result with
    | .error _ => ⟨first.monitor, state, first.log, .exit 1⟩
    | .ok _ =>
      let advanced := bar.advance state
      match advanced.2 with
      | .error complaint =>
        ⟨first.monitor, advanced.1, first.log, .abort (.undrawable complaint)⟩
      | .ok () =>
        let later := first.monitor.play bar clocks advanced.1 n
        { later with log := first.log ++ later.log }

namespace CommandLine

namespace Options

def threshold (options : Options) : Except Abort Severity :=
  match options.trace, options.level with
  | true, _ => .ok .debug
  | false, some level => .ok level
  | false, none => .error .noLevel

def logger (options : Options) : Except Abort Logger := do
  return { name := "PolyChip8", threshold := ← options.threshold, colored := false,
           stamped := true }

def key (options : Options) : Except Abort Random.Key :=
  match options.seed with
  | none => .error .noSeed
  | some seed =>
    match Random.Key.ofSeed? seed with
    | none => .error .seedTooLarge
    | some key => .ok key

def prepare (options : Options) : Except Abort (Logger × Random.Key) := do
  return (← options.logger, ← options.key)

def openBar (options : Options) (bar : Bar) : Except Abort (Option bar.State) :=
  match options.progress, options.frames with
  | false, _ => .ok none
  | true, none => .error .noTotal
  | true, some frames =>
    match bar.start (.frames frames none 0) with
    | .ok state => .ok (some state)
    | .error complaint => .error (.undrawable complaint)

/-- The number of frames, and of clocks in each of them: where no frame is run
the latter is not needed. -/
def schedule (options : Options) : Except Abort (Int × Int) :=
  match options.frames, options.clocks with
  | none, _ => .error .noCount
  | some frames, some clocks => .ok (frames, clocks)
  | some frames, none => if 0 < frames then .error .noCount else .ok (frames, 0)

def summary (frames : Int) (m : Machine) : Entry :=
  .ofSeverity .info ("Ran " ++ Numeral.decimal frames ++ " frames, PC=$0x" ++
    Numeral.hex 4 m.pc.toNat ++ ", status=" ++ m.status.name)

def views (options : Options) (m : Machine) : List Output :=
  (if options.showScreen then [.line (m.display.text "#" ".")] else []) ++
    if options.registers then (RegisterDump.lines m).map .line else []

/-- The frames, and what is shown after the last of them. Whatever ends them, the bar is
closed. -/
def execute (options : Options) (bar : Bar) (monitor : Monitor) : Outcome :=
  match options.openBar bar with
  | .error cause => ⟨.abort cause, []⟩
  | .ok state =>
    match options.schedule with
    | .error cause => ⟨Ending.closing (.abort cause) (bar.finish state), []⟩
    | .ok (frames, clocks) =>
      let played := monitor.play bar clocks state frames.toNat
      let m := played.monitor.machine
      match played.ending.closing (bar.finish played.bar) with
      | .exit 0 =>
        ⟨.exit 0, told played.log ++ .entry (summary frames m) :: options.views m⟩
      | ending => ⟨ending, told played.log⟩

def list (monitor : Monitor) : Outcome :=
  match monitor.machine.listing true with
  | .ok text => ⟨.exit 0, text.map .line⟩
  | .error _ => ⟨.exit 1, []⟩

def run (options : Options) (bar : Bar) (key : Random.Key) (name : String)
    (contents : Except FileError (List Byte)) : Outcome :=
  let report := Monitor.respond ⟨.powerOn key, options.trace⟩ (.loadFile name contents)
  match report.result with
  | .error (.unreadable .nullInName) => ⟨.abort .badName, []⟩
  | .error (.unreadable cause) =>
    ⟨.exit 1, [.entry (.ofSeverity .error ("Cannot read ROM: " ++ cause.message))]⟩
  | .error _ => ⟨.exit 1, told report.log⟩
  | .ok _ =>
    let rest :=
      if options.disassemble then list report.monitor else options.execute bar report.monitor
    { rest with output := told report.log ++ rest.output }

end Options

end CommandLine

end Chip8
