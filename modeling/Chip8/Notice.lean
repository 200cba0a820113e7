import Chip8.Fault
import Chip8.Listing
import Chip8.Log

/-!
# What a monitor notices

The events that are told of a machine, and the log entry of each: faults are
errors, a loaded file is information, the rest is for debugging.
-/

namespace Chip8

inductive Notice where
  | loadedRom (size : Int)
  | loadedFile (name : String) (size : Int)
  | reset (cleared : Bool)
  | executed (address word : Int)
  | awaitingKey (address : Int)
  | resumed (pc : Int)
  | fault (cause : Fault)

namespace Notice

def severity : Notice → Severity
  | .loadedFile .. => .info
  | .fault _ => .error
  | _ => .debug

def bytes (size : Int) : String :=
  "(" ++ Numeral.decimal size ++ " bytes)"

def message : Notice → String
  | .loadedRom size => "Loaded ROM " ++ bytes size
  | .loadedFile name size => "Loaded " ++ name ++ " " ++ bytes size
  | .reset cleared => "Machine reset" ++ if cleared then " (memory cleared)" else ""
  | .executed address word => Listing.line address word
  | .awaitingKey address => "Awaiting key press at $0x" ++ Numeral.hex 4 address
  | .resumed pc => "Key press received, resuming at $0x" ++ Numeral.hex 4 pc
  | .fault cause => cause.message

def entry (notice : Notice) : Entry :=
  .ofSeverity notice.severity notice.message

end Notice

end Chip8
