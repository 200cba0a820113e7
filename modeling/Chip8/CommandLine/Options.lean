import Chip8.CommandLine.Switch
import Chip8.Log

/-!
# Options

What a command line asks for: a file with a program, how long to run it, and
what to show. A value that is only `--` leaves its setting empty, which is no
problem until the setting is needed.
-/

namespace Chip8.CommandLine

/-- An empty setting is `none`. -/
structure Options where
  frames : Option Int
  clocks : Option Int
  seed : Option Int
  level : Option Severity
  trace : Bool
  disassemble : Bool
  showScreen : Bool
  registers : Bool
  progress : Bool
  deriving DecidableEq

namespace Options

def default : Options where
  frames := some 60
  clocks := some 10
  seed := some 0
  level := some .info
  trace := false
  disassemble := false
  showScreen := false
  registers := false
  progress := false

end Options

inductive Stop where
  | help
  | problem (cause : Problem)
  deriving DecidableEq

namespace Options

/-- What is read from a value; nothing is read from the divider. -/
def setting {α : Type} (read : String → Except Stop α) (value : String) :
    Except Stop (Option α) :=
  if value = "--" then .ok none else some <$> read value

def integer (switch : Switch) (value : String) : Except Stop Int :=
  match Integer.ofText? value with
  | some n => .ok n
  | none => .error (.problem (.badInteger switch value))

def level? (value : String) : Except Stop Severity :=
  match Severity.all.find? fun severity => severity.name = value with
  | some severity => .ok severity
  | none => .error (.problem (.badChoice .logLevel value (Severity.all.map Severity.name)))

def apply (options : Options) (switch : Switch) (value : String) : Except Stop Options :=
  match switch with
  | .help => .error .help
  | .frames => do return { options with frames := ← setting (integer .frames) value }
  | .clocks => do return { options with clocks := ← setting (integer .clocks) value }
  | .seed => do return { options with seed := ← setting (integer .seed) value }
  | .logLevel => do return { options with level := ← setting level? value }
  | .trace => .ok { options with trace := true }
  | .disassemble => .ok { options with disassemble := true }
  | .showScreen => .ok { options with showScreen := true }
  | .registers => .ok { options with registers := true }
  | .progress => .ok { options with progress := true }

def applyAll (options : Options) : List (Switch × String) → Except Stop Options
  | [] => .ok options
  | (switch, value) :: rest => do (← options.apply switch value).applyAll rest

end Options

/-- What one word of switches comes to: switches with their values, and one
that still wants the next word. -/
structure Cluster where
  settled : List (Switch × String)
  pending : Option Switch
  deriving DecidableEq

namespace Cluster

def single (switch : Switch) : Cluster :=
  if switch.takesValue then ⟨[], some switch⟩ else ⟨[(switch, "")], none⟩

/-- A switch with what stands behind it: its value, or behind a short switch
that takes none, further short switches. -/
def attached (switch : Switch) (short : Bool) (text : List Char) : Except Problem Cluster :=
  if switch.takesValue then .ok ⟨[(switch, String.ofList text)], none⟩
  else
    match text with
    | [] => .error (.unwantedValue switch "")
    | first :: rest =>
      match if short then Switch.ofName? ['-', first] else none with
      | none => .error (.unwantedValue switch (String.ofList (first :: rest)))
      | some next => do
        let later ← if rest.isEmpty then .ok (single next) else attached next true rest
        return { later with settled := (switch, "") :: later.settled }

def of (switch : Switch) (short : Bool) (value : Option (List Char)) : Except Problem Cluster :=
  match value with
  | none => .ok (single switch)
  | some text => attached switch short text

end Cluster

structure Draft where
  options : Options
  rom : Option String
  extras : List String
  deriving DecidableEq

namespace Draft

def start : Draft :=
  ⟨.default, none, []⟩

def keep (draft : Draft) (words : List String) : Draft :=
  { draft with extras := draft.extras ++ words }

def settle (draft : Draft) (switches : List (Switch × String)) : Except Stop Draft := do
  return { draft with options := ← draft.options.applyAll switches }

/-- The first plain word is the file. A `--` beside it is passed over, any
other is kept. -/
def read (draft : Draft) : List Token → Except Stop Draft
  | [] => .ok draft
  | .plain text :: .divider :: rest =>
    match draft.rom with
    | none => read { draft with rom := some text } rest
    | some _ => read (draft.keep [text, "--"]) rest
  | .plain text :: rest =>
    match draft.rom with
    | none => read { draft with rom := some text } rest
    | some _ => read (draft.keep [text]) rest
  | .divider :: .plain text :: rest =>
    match draft.rom with
    | none => read { draft with rom := some text } rest
    | some _ => read (draft.keep ["--", text]) rest
  | .divider :: rest => read (draft.keep ["--"]) rest
  | .unknown text :: rest => read (draft.keep [text]) rest
  | .named switch short value :: rest =>
    match Cluster.of switch short value with
    | .error problem => .error (.problem problem)
    | .ok cluster =>
      match cluster.pending, rest with
      | none, rest => do
        read (← draft.settle cluster.settled) rest
      | some last, .plain text :: rest => do
        read (← draft.settle (cluster.settled ++ [(last, text)])) rest
      | some last, _ => .error (.problem (.missingValue last))

/-- A missing file is complained of before words that are too many. -/
def finish (draft : Draft) : Except Stop (Options × String) :=
  match draft.rom, draft.extras with
  | none, _ => .error (.problem .missingRom)
  | some rom, [] => .ok (draft.options, rom)
  | some _, extras => .error (.problem (.unrecognized extras))

end Draft

def parse (words : List String) : Except Stop (Options × String) :=
  match Token.ofWords words with
  | .error problem => .error (.problem problem)
  | .ok tokens => do (← Draft.start.read tokens).finish

end Chip8.CommandLine
