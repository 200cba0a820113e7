import Chip8.Operation

/-!
# The instruction set as a list of patterns

Each operation but one is written as four places, every place a fixed digit or
free. A word has the operation of the pattern that it fits.
-/

namespace Chip8

inductive Place where
  | digit (value : Fin 16)
  | free
  deriving DecidableEq

def Place.fits : Place → Fin 16 → Bool
  | .digit value, d => d = value
  | .free, _ => true

structure Pattern where
  family : Place
  x : Place
  y : Place
  n : Place
  deriving DecidableEq

def Pattern.fits (pattern : Pattern) (i : Instruction) : Bool :=
  pattern.family.fits i.family && pattern.x.fits i.x && pattern.y.fits i.y && pattern.n.fits i.n

namespace Pattern

def familyOnly (f : Fin 16) : Pattern :=
  ⟨.digit f, .free, .free, .free⟩

def lastDigit (f n : Fin 16) : Pattern :=
  ⟨.digit f, .free, .free, .digit n⟩

def lastTwo (f y n : Fin 16) : Pattern :=
  ⟨.digit f, .free, .digit y, .digit n⟩

def exact (f x y n : Fin 16) : Pattern :=
  ⟨.digit f, .digit x, .digit y, .digit n⟩

end Pattern

namespace Operation

def grammar : List (Pattern × Operation) :=
  [(.exact 0x0 0x0 0xE 0x0, .clearScreen),
   (.exact 0x0 0x0 0xE 0xE, .ret),
   (.familyOnly 0x1, .jump),
   (.familyOnly 0x2, .call),
   (.familyOnly 0x3, .skip .byteEqual),
   (.familyOnly 0x4, .skip .byteDiffers),
   (.familyOnly 0x5, .skip .registersEqual),
   (.familyOnly 0x6, .setByte),
   (.familyOnly 0x7, .addByte),
   (.lastDigit 0x8 0x0, .arithmetic .copy),
   (.lastDigit 0x8 0x1, .arithmetic .or),
   (.lastDigit 0x8 0x2, .arithmetic .and),
   (.lastDigit 0x8 0x3, .arithmetic .xor),
   (.lastDigit 0x8 0x4, .arithmetic .add),
   (.lastDigit 0x8 0x5, .arithmetic .subtract),
   (.lastDigit 0x8 0x6, .arithmetic .shiftRight),
   (.lastDigit 0x8 0x7, .arithmetic .subtractFrom),
   (.lastDigit 0x8 0xE, .arithmetic .shiftLeft),
   (.familyOnly 0x9, .skip .registersDiffer),
   (.familyOnly 0xA, .setIndex),
   (.familyOnly 0xB, .jumpOffset),
   (.familyOnly 0xC, .random),
   (.familyOnly 0xD, .draw),
   (.lastTwo 0xE 0x9 0xE, .skip .keyDown),
   (.lastTwo 0xE 0xA 0x1, .skip .keyUp),
   (.lastTwo 0xF 0x0 0x7, .readDelay),
   (.lastTwo 0xF 0x0 0xA, .awaitKey),
   (.lastTwo 0xF 0x1 0x5, .setDelay),
   (.lastTwo 0xF 0x1 0x8, .setSound),
   (.lastTwo 0xF 0x1 0xE, .addIndex),
   (.lastTwo 0xF 0x2 0x9, .glyph),
   (.lastTwo 0xF 0x3 0x3, .storeDecimal),
   (.lastTwo 0xF 0x5 0x5, .storeRegisters),
   (.lastTwo 0xF 0x6 0x5, .loadRegisters)]

end Operation

end Chip8
