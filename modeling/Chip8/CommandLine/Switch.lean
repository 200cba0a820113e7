import Chip8.Text.Integer
import Chip8.Text.Quoted

/-!
# Switches

The words of a command line, sorted into switches and plain words. A long
switch may be cut short where that leaves it unambiguous and may carry its
value behind an equals sign. Words that look like negative numbers are plain,
and so is everything after the first `--`.
-/

namespace Chip8.CommandLine

inductive Switch where
  | help
  | frames
  | clocks
  | seed
  | logLevel
  | trace
  | disassemble
  | showScreen
  | registers
  | progress
  deriving DecidableEq

namespace Switch

def all : List Switch :=
  [.help, .frames, .clocks, .seed, .logLevel, .trace, .disassemble, .showScreen, .registers,
    .progress]

def names : Switch → List String
  | .help => ["-h", "--help"]
  | .frames => ["--frames"]
  | .clocks => ["--ipf"]
  | .seed => ["--seed"]
  | .logLevel => ["--log-level"]
  | .trace => ["--trace"]
  | .disassemble => ["--disassemble"]
  | .showScreen => ["--show-screen"]
  | .registers => ["--registers"]
  | .progress => ["--progress"]

def takesValue : Switch → Bool
  | .frames | .clocks | .seed | .logLevel => true
  | _ => false

def title (switch : Switch) : String :=
  "/".intercalate switch.names

def spellings : List (List Char × Switch) :=
  all.flatMap fun switch => switch.names.map fun name => (name.toList, switch)

def ofName? (name : List Char) : Option Switch :=
  (spellings.find? fun spelling => spelling.1 = name).map (·.2)

end Switch

inductive Problem where
  | ambiguous (given : String) (candidates : List String)
  | missingValue (switch : Switch)
  | unwantedValue (switch : Switch) (value : String)
  | badInteger (switch : Switch) (value : String)
  | badChoice (switch : Switch) (value : String) (choices : List String)
  | missingRom
  | unrecognized (words : List String)
  deriving DecidableEq

namespace Problem

def about (switch : Switch) (complaint : String) : String :=
  "argument " ++ switch.title ++ ": " ++ complaint

def message : Problem → String
  | .ambiguous given candidates =>
    "ambiguous option: " ++ given ++ " could match " ++ ", ".intercalate candidates
  | .missingValue switch => about switch "expected one argument"
  | .unwantedValue switch value => about switch ("ignored explicit argument " ++ quoted value)
  | .badInteger switch value => about switch ("invalid int value: " ++ quoted value)
  | .badChoice switch value choices =>
    about switch ("invalid choice: " ++ quoted value ++ " (choose from " ++
      ", ".intercalate (choices.map quoted) ++ ")")
  | .missingRom => "the following arguments are required: rom"
  | .unrecognized words => "unrecognized arguments: " ++ " ".intercalate words

end Problem

/-- A switch comes with what stands behind it in the same word. -/
inductive Token where
  | plain (text : String)
  | divider
  | named (switch : Switch) (short : Bool) (value : Option (List Char))
  | unknown (text : String)
  deriving DecidableEq

namespace Token

def splitValue (word : List Char) : List Char × Option (List Char) :=
  match word.dropWhile (· ≠ '=') with
  | [] => (word, none)
  | _ :: value => (word.takeWhile (· ≠ '='), some value)

def isDigit (c : Char) : Bool :=
  (Integer.digit? c).isSome

/-- A minus sign and digits, with at most one point before the last digits; a
line end may follow. -/
def isNegativeNumber (word : List Char) : Bool :=
  let word := if word.getLast? = some '\n' then word.dropLast else word
  match word with
  | '-' :: rest =>
    match rest.dropWhile isDigit with
    | [] => !rest.isEmpty
    | '.' :: fraction => !fraction.isEmpty && fraction.all isDigit
    | _ => false
  | _ => false

/-- The switches that a word may be short for, each with its full spelling. A
word with one dash is a short switch with its value, or the start of a longer
spelling. -/
def candidates (word : List Char) : List (List Char × Token) :=
  if word.take 2 = ['-', '-'] then
    let (start, value) := splitValue word
    (Switch.spellings.filter fun spelling => start.isPrefixOf spelling.1).map
      fun (name, switch) => (name, .named switch false value)
  else
    Switch.spellings.filterMap fun (name, switch) =>
      if name = word.take 2 then some (name, .named switch true (some (word.drop 2)))
      else if word.isPrefixOf name then some (name, .named switch false none)
      else none

def isShort (name : List Char) : Bool :=
  name.take 2 ≠ ['-', '-']

def ofWord (text : String) : Except Problem Token :=
  let word := text.toList
  if word.head? ≠ some '-' then .ok (.plain text)
  else
    match Switch.ofName? word with
    | some switch => .ok (.named switch (isShort word) none)
    | none =>
      if word.length = 1 then .ok (.plain text)
      else
        let (name, value) := splitValue word
        match value, Switch.ofName? name with
        | some _, some switch => .ok (.named switch (isShort name) value)
        | _, _ =>
          match candidates word with
          | [(_, token)] => .ok token
          | [] =>
            if isNegativeNumber word ∨ ' ' ∈ word then .ok (.plain text)
            else .ok (.unknown text)
          | several => .error (.ambiguous text (several.map fun c => String.ofList c.1))

def ofWords : List String → Except Problem (List Token)
  | [] => .ok []
  | "--" :: rest => .ok (.divider :: rest.map .plain)
  | word :: rest => do
    let token ← ofWord word
    return token :: (← ofWords rest)

end Token

end Chip8.CommandLine
