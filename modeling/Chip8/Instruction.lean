import Chip8.Bank

/-!
# Instruction words

A word is four hexadecimal digits `FXYN`: the family, two register numbers and
a small number. The low two digits together are a byte, the low three an
address. Digits and word determine each other (`toWord_ofWord`,
`ofWord_toWord`).
-/

namespace Chip8

structure Instruction where
  family : Fin 16
  x : Fin 16
  y : Fin 16
  n : Fin 16
  deriving DecidableEq

namespace Instruction

def ofWord (word : Word) : Instruction where
  family := ⟨word.toNat / 4096, by have := word.isLt; omega⟩
  x := ⟨word.toNat / 256 % 16, by omega⟩
  y := ⟨word.toNat / 16 % 16, by omega⟩
  n := ⟨word.toNat % 16, by omega⟩

/-- Any integer names a word: its two's complement cut to 16 bits. -/
def ofInt (value : Int) : Instruction :=
  ofWord (BitVec.ofInt 16 value)

def byte (i : Instruction) : Byte :=
  BitVec.ofNat 8 (16 * i.y + i.n)

def address (i : Instruction) : Word :=
  BitVec.ofNat 16 (256 * i.x + 16 * i.y + i.n)

def toWord (i : Instruction) : Word :=
  BitVec.ofNat 16 (4096 * i.family + 256 * i.x + 16 * i.y + i.n)

theorem toWord_ofWord (word : Word) : (ofWord word).toWord = word := by
  apply BitVec.eq_of_toNat_eq
  have := word.isLt
  simp only [toWord, ofWord, BitVec.toNat_ofNat]
  omega

theorem ofWord_toWord (i : Instruction) : ofWord i.toWord = i := by
  cases i with
  | mk f x y n =>
    have hf := f.isLt
    have hx := x.isLt
    have hy := y.isLt
    have hn := n.isLt
    simp only [ofWord, toWord, BitVec.toNat_ofNat, mk.injEq, Fin.ext_iff]
    omega

theorem ofInt_toNat (word : Word) : ofInt word.toNat = ofWord word := by
  rw [ofInt, BitVec.ofInt_natCast, BitVec.ofNat_toNat, BitVec.setWidth_eq]

theorem ofInt_digits (f x y n : Fin 16) :
    ofInt (0x1000 * f + 0x100 * x + 0x10 * y + n : Nat) = ⟨f, x, y, n⟩ := by
  rw [ofInt, BitVec.ofInt_natCast]
  exact ofWord_toWord ⟨f, x, y, n⟩

theorem ofInt_behind (f x y n : Fin 16) :
    ofInt (0x1000 * f + (0x10 * y + n) + 0x100 * x : Nat) = ⟨f, x, y, n⟩ := by
  have digits : 0x1000 * f.val + (0x10 * y + n) + 0x100 * x =
      0x1000 * f + 0x100 * x + 0x10 * y + n := by omega
  rw [digits]
  exact ofInt_digits f x y n

theorem toNat_byte (i : Instruction) : i.byte.toNat = 16 * i.y + i.n := by
  have := i.y.isLt
  have := i.n.isLt
  simp only [byte, BitVec.toNat_ofNat]
  omega

theorem toNat_address (i : Instruction) : i.address.toNat = 256 * i.x + 16 * i.y + i.n := by
  have := i.x.isLt
  have := i.y.isLt
  have := i.n.isLt
  simp only [address, BitVec.toNat_ofNat]
  omega

end Instruction

end Chip8
