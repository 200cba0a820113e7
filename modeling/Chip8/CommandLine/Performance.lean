import Chip8.CommandLine.Run

/-!
# Performing a command

From the words of a command line, and from what is in the file that they name, to the
status a command ends with and the text that it prints (`perform`).
-/

namespace Chip8.CommandLine

def programName : String := "polychip8"

def usage : String :=
  "usage: " ++ programName ++ " [-h] [--frames N] [--ipf N] [--seed N] [--log-level LEVEL] " ++
    "[--trace] [--disassemble] [--show-screen] [--registers] [--progress] rom"

def complaint (problem : Problem) : String :=
  programName ++ ": error: " ++ problem.message

def Outcome.text (outcome : Outcome) (logger : Logger) (stamp : String) : String :=
  String.join (outcome.output.map (·.print logger stamp))

/-- The text that is printed depends on the time, for which `stamp` stands. -/
structure Performance where
  ending : Ending
  printed : String → String
  complained : String

namespace Performance

def aborted (cause : Abort) (printed : String → String) : Performance :=
  ⟨.abort cause, printed, cause.message ++ "\n"⟩

def ofOutcome (logger : Logger) (outcome : Outcome) : Performance :=
  match outcome.ending with
  | .exit status => ⟨.exit status, outcome.text logger, ""⟩
  | .abort cause => aborted cause (outcome.text logger)

end Performance

def romOf? (words : List String) : Option String :=
  match parse words with
  | .ok (_, rom) => some rom
  | .error _ => none

def perform (bar : Bar) (words : List String) (contents : Except FileError (List Byte)) :
    Performance :=
  match parse words with
  | .error .help => ⟨.exit 0, fun _ => usage ++ "\n", ""⟩
  | .error (.problem problem) =>
    ⟨.exit 2, fun _ => "", usage ++ "\n" ++ complaint problem ++ "\n"⟩
  | .ok (options, rom) =>
    match options.prepare with
    | .error cause => .aborted cause fun _ => ""
    | .ok (logger, key) => .ofOutcome logger (options.run bar key rom contents)

end Chip8.CommandLine
