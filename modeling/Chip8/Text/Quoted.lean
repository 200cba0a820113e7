import Chip8.Text.Numeral
import Chip8.Text.Printable

/-!
# Quoted text

How a message shows a text that it was handed: between quotation marks, with
the mark itself, the backslash and every blank character escaped, so that the
quotation stays on one line and ends where it seems to.
-/

namespace Chip8.Quoted

/-- Double marks only where they save escaping: the text has a single mark and
no double one. -/
def mark (text : List Char) : Char :=
  if '\'' ∈ text ∧ '"' ∉ text then '"' else '\''

def escapeCode (c : Char) : String :=
  if c.toNat < 0x100 then "\\x" ++ Numeral.lowerHex 2 c.toNat
  else if c.toNat < 0x10000 then "\\u" ++ Numeral.lowerHex 4 c.toNat
  else "\\U" ++ Numeral.lowerHex 8 c.toNat

def escape (quote c : Char) : String :=
  if c = quote ∨ c = '\\' then String.ofList ['\\', c]
  else if c = '\n' then "\\n"
  else if c = '\r' then "\\r"
  else if c = '\t' then "\\t"
  else if Printable.isBlank c then escapeCode c
  else String.singleton c

end Chip8.Quoted

namespace Chip8

def quoted (text : String) : String :=
  let quote := Quoted.mark text.toList
  String.singleton quote ++ String.join (text.toList.map (Quoted.escape quote)) ++
    String.singleton quote

end Chip8
