import Chip8.Listing
import Chip8.Machine.Clock

/-!
# What a host can ask of a machine

The requests as data, and what each does to a machine and answers. A run is
the fold of its requests over the state it starts from (`Machine.respondAll`).
-/

namespace Chip8

/-- Why a file could not be read: for the system's reason, which comes with a
code and the name as it was given, or because the name cannot be handed to the
system at all. -/
inductive FileError where
  | system (code : Nat) (reason name : String)
  | nullInName
  deriving DecidableEq

namespace FileError

def notFound (name : String) : FileError :=
  .system 2 "No such file or directory" name

def isDirectory (name : String) : FileError :=
  .system 21 "Is a directory" name

def message : FileError → String
  | .system code reason name =>
    "[Errno " ++ Numeral.decimal code ++ "] " ++ reason ++ ": " ++ quoted name
  | .nullInName => "embedded null byte"

end FileError

/-- Only a fault is the machine's own. A number with too many digits cannot even be
complained of. -/
inductive Failure where
  | fault (cause : Fault)
  | notAByte
  | tooManyDigits
  | unreadable (cause : FileError)
  | badIndex (cause : Listing.BadIndex)

def Failure.message : Failure → String
  | .fault cause => cause.message
  | .notAByte => "bytes must be in range(0, 256)"
  | .tooManyDigits =>
    "Exceeds the limit (4300 digits) for integer string conversion; " ++
      "use sys.set_int_max_str_digits() to increase the limit"
  | .unreadable cause => cause.message
  | .badIndex cause => cause.message

inductive Call where
  | loadRom (bytes : List Int)
  | loadFile (name : String) (contents : Except FileError (List Byte))
  | reset (clear : Bool)
  | fetch
  | execute (word : Option Int)
  | clock
  | tick
  | frame (clocks : Int)
  | setKey (key : Datum) (pressed : Bool)
  | disassemble (programOnly : Bool)

inductive Answer where
  | done
  | instruction (i : Instruction)
  | lines (text : List String)

def byte? (value : Int) : Option Byte :=
  if 0 ≤ value ∧ value < 256 then some (BitVec.ofInt 8 value) else none

namespace Machine

def wordOr (m : Machine) (word : Option Int) : Int :=
  word.getD m.held.toNat

def clocks (m : Machine) : Nat → Machine × Except Fault Unit
  | 0 => (m, .ok ())
  | n + 1 =>
    match m.clock with
    | .ok after => after.clocks n
    | .error fault => (m, .error fault)

def listing (m : Machine) (programOnly : Bool) : Except Listing.BadIndex (List String) :=
  Listing.range m.memory programStart
    (if programOnly then programStart + m.romSize else 4096)

def settle (m : Machine) (outcome : Except Fault Machine) : Machine × Except Failure Answer :=
  match outcome with
  | .ok after => (after, .ok .done)
  | .error fault => (m, .error (.fault fault))

def respond (m : Machine) : Call → Machine × Except Failure Answer
  | .loadRom bytes =>
    match bytes.mapM byte? with
    | some rom => m.settle (m.loadRom rom)
    | none => (m, .error .notAByte)
  | .loadFile _ (.ok rom) => m.settle (m.loadRom rom)
  | .loadFile _ (.error cause) => (m, .error (.unreadable cause))
  | .reset clear => (m.reset clear, .ok .done)
  | .fetch =>
    match m.fetch with
    | .ok (after, word) => (after, .ok (.instruction (.ofWord word)))
    | .error fault => (m, .error (.fault fault))
  | .execute word => m.settle (m.execute (m.wordOr word))
  | .clock => m.settle m.clock
  | .tick => (m.tick, .ok .done)
  | .frame count =>
    match m.tick.clocks count.toNat with
    | (after, .ok ()) => (after, .ok .done)
    | (after, .error fault) => (after, .error (.fault fault))
  | .setKey key pressed =>
    match key.keyName? with
    | some name => m.settle (m.setKey name pressed)
    | none => (m, .error .tooManyDigits)
  | .disassemble programOnly =>
    match m.listing programOnly with
    | .ok text => (m, .ok (.lines text))
    | .error bad => (m, .error (.badIndex bad))

def respondAll (m : Machine) : List Call → Machine
  | [] => m
  | call :: rest => (m.respond call).1.respondAll rest

end Machine

end Chip8
