import Chip8.CommandLine.Performance
import Chip8.Progress.Floating

/-!
# The command

Reads the file that the command line names and prints what is performed.
-/

namespace Chip8.CommandLine

/-- Seconds since the start with two places, in a field of eight. -/
def clockStamp (start now : Nat) : String :=
  let hundredths := (now - start + 5) / 10
  let seconds := Numeral.paddedDecimal 1 (hundredths / 100) ++ "." ++
    Numeral.paddedDecimal 2 (hundredths % 100)
  "[" ++ Numeral.padStart 8 seconds ++ "s]"

def fileError (name : String) : IO.Error → FileError
  | .noFileOrDirectory .. => .notFound name
  | .permissionDenied .. => .system 13 "Permission denied" name
  | .inappropriateType .. => .isDirectory name
  | other => .system 5 (toString other) name

def readRom (name : String) : IO (Except FileError (List Byte)) := do
  if '\x00' ∈ name.toList then return .error .nullInName
  try
    let bytes ← IO.FS.readBinFile name
    return .ok (bytes.toList.map fun b => BitVec.ofNat 8 b.toNat)
  catch failure => return .error (fileError name failure)

def Ending.status : Ending → UInt32
  | .exit status => status.toUInt32
  | .abort _ => 1

def command (words : List String) : IO UInt32 := do
  let start ← IO.monoMsNow
  let contents ← (romOf? words).elim (return .ok []) readRom
  let performance := perform .floating words contents
  IO.print (performance.printed (clockStamp start (← IO.monoMsNow)))
  IO.eprint performance.complained
  return performance.ending.status

end Chip8.CommandLine

def main (words : List String) : IO UInt32 :=
  Chip8.CommandLine.command words
