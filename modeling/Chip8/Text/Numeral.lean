/-!
# Numbers as text

Digits in any base, most significant first, and the three ways this machine
writes numbers: hexadecimal padded with zeros, decimal, and decimal with the
thousands marked off. Reading the digits back gives the number
(`value_digits`).
-/

namespace Chip8.Numeral

/-- Zero has one digit; a base below two has no digits to offer, so the
number stands as it is. -/
def digits (base n : Nat) : List Nat :=
  if _ : n < base ∨ base < 2 then [n] else digits base (n / base) ++ [n % base]
termination_by n
decreasing_by exact Nat.div_lt_self (by omega) (by omega)

def value (base : Nat) (ds : List Nat) : Nat :=
  ds.foldl (fun acc d => acc * base + d) 0

theorem value_append_singleton (base : Nat) (ds : List Nat) (d : Nat) :
    value base (ds ++ [d]) = value base ds * base + d := by
  simp [value]

theorem value_digits (base n : Nat) : value base (digits base n) = n := by
  induction n using Nat.strongRecOn with
  | ind n ih =>
    rw [digits]
    split
    · simp [value]
    · next h =>
      rw [value_append_singleton, ih _ (Nat.div_lt_self (by omega) (by omega))]
      exact Nat.div_add_mod' n base

theorem digits_lt {base n : Nat} (hb : 2 ≤ base) : ∀ d ∈ digits base n, d < base := by
  induction n using Nat.strongRecOn with
  | ind n ih =>
    rw [digits]
    split
    · next h => intro d hd; simp at hd; omega
    · next h =>
      intro d hd
      rcases List.mem_append.mp hd with hd | hd
      · exact ih _ (Nat.div_lt_self (by omega) (by omega)) d hd
      · simp at hd
        exact hd ▸ Nat.mod_lt n (by omega)

def lowerDigit (d : Nat) : Char :=
  Nat.digitChar d

def upperDigit (d : Nat) : Char :=
  (Nat.digitChar d).toUpper

/-- A minus sign stands in front of the padding and counts in the width; a
number that needs more room is written out in full. -/
def zeroPadded (width : Nat) (negative : Bool) (text : List Char) : List Char :=
  let sign := if negative then ['-'] else []
  sign ++ List.leftpad (width - sign.length) '0' text

def hex (width : Nat) (n : Int) : String :=
  String.ofList (zeroPadded width (n < 0) ((digits 16 n.natAbs).map upperDigit))

def lowerHex (width n : Nat) : String :=
  String.ofList (zeroPadded width false ((digits 16 n).map lowerDigit))

def decimal (n : Int) : String :=
  String.ofList (zeroPadded 0 (n < 0) ((digits 10 n.natAbs).map lowerDigit))

def paddedDecimal (width n : Nat) : String :=
  String.ofList (zeroPadded width false ((digits 10 n).map lowerDigit))

def hexDigit? (c : Char) : Option Nat :=
  (List.range 16).find? fun d => c = upperDigit d || c = lowerDigit d

def ofHex? (text : List Char) : Option Nat :=
  if text.isEmpty then none else (text.mapM hexDigit?).map (value 16)

def groupThrees : List Char → List Char
  | a :: b :: c :: d :: rest => a :: b :: c :: ',' :: groupThrees (d :: rest)
  | short => short

def grouped (n : Int) : String :=
  String.ofList (zeroPadded 0 (n < 0)
    (groupThrees ((digits 10 n.natAbs).map lowerDigit).reverse).reverse)

def padEnd (width : Nat) (text : String) : String :=
  String.ofList (List.rightpad width ' ' text.toList)

def padStart (width : Nat) (text : String) : String :=
  String.ofList (List.leftpad width ' ' text.toList)

end Chip8.Numeral
