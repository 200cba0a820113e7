import Chip8.Text.Numeral

/-!
# The log

What happens is recorded as entries, each with the name of a level and a
message. A logger decides which of them are printed and how: the log of a
stricter logger is a part of the log of a more talkative one.
-/

namespace Chip8

inductive Severity where
  | debug
  | info
  | warning
  | error
  | critical
  deriving DecidableEq

namespace Severity

def rank : Severity → Nat
  | .debug => 0
  | .info => 1
  | .warning => 2
  | .error => 3
  | .critical => 4

def name : Severity → String
  | .debug => "DEBUG"
  | .info => "INFO"
  | .warning => "WARNING"
  | .error => "ERROR"
  | .critical => "CRITICAL"

def all : List Severity := [.debug, .info, .warning, .error, .critical]

/-- The capital of a letter. Outside ASCII only the two letters count whose
capital is an ASCII letter: no other can be part of a level's name. -/
def capital (c : Char) : Char :=
  if c = 'ı' then 'I' else if c = 'ſ' then 'S' else c.toUpper

def capitals (text : String) : String :=
  String.ofList (text.toList.map capital)

/-- Names are compared without regard to case; a name that is none of the
five counts as `info`. -/
def ofName (text : String) : Severity :=
  (all.find? fun severity => severity.name = capitals text).getD .info

end Severity

structure Entry where
  level : String
  message : String
  deriving DecidableEq

namespace Entry

def severity (entry : Entry) : Severity :=
  .ofName entry.level

def ofSeverity (severity : Severity) (message : String) : Entry :=
  ⟨severity.name, message⟩

end Entry

structure Logger where
  name : String
  threshold : Severity
  colored : Bool
  stamped : Bool
  deriving DecidableEq

namespace Logger

def passes (logger : Logger) (entry : Entry) : Bool :=
  logger.threshold.rank ≤ entry.severity.rank

def escape (code : Nat) : String :=
  "\x1b[" ++ Numeral.decimal code ++ "m"

/-- The color of a level's label: the five levels have one each, and `RESET`
is the name of having none. -/
def color (level : String) : String :=
  match Severity.capitals level with
  | "DEBUG" => escape 36
  | "INFO" => escape 32
  | "WARNING" => escape 33
  | "ERROR" => escape 31
  | "CRITICAL" => escape 35
  | "RESET" => escape 0
  | _ => ""

def label (logger : Logger) (level : String) : String :=
  let plain := "[" ++ Numeral.padStart 8 level ++ "]"
  if logger.colored then color level ++ plain ++ escape 0 else plain

def line (logger : Logger) (stamp : String) (entry : Entry) : String :=
  (if logger.stamped then stamp else "") ++ logger.label entry.level ++ "[" ++ logger.name ++
    "] " ++ entry.message ++ "\n"

def print (logger : Logger) (stamp : String) (entry : Entry) : String :=
  if logger.passes entry then logger.line stamp entry else ""

def printAll (logger : Logger) (stamp : String) (entries : List Entry) : String :=
  String.join (entries.map (logger.print stamp))

end Logger

end Chip8
