import Chip8.Text.Numeral

/-!
# The shortest decimal of a binary fraction

A finite double is `significand * 2 ^ exponent`. Every real number between the
two midpoints to its neighbours rounds to it, the midpoints themselves too when
the significand is even. Among the decimals in that interval the one with the
fewest digits is printed, and of several such the nearest.
-/

namespace Chip8.Shortest

def twoTo (n : Nat) : Nat := Nat.pow 2 n

def tenTo (n : Nat) : Nat := Nat.pow 10 n

/-- The interval of numbers that round to one double, over one denominator. -/
structure Interval where
  low : Nat
  value : Nat
  high : Nat
  denominator : Nat
  closed : Bool

/-- Below a power of two the neighbour is half as far away as above it. -/
def Interval.of (significand : Nat) (exponent : Int) (narrow : Bool) : Interval :=
  let up := twoTo (exponent - 2).toNat
  { low := (4 * significand - if narrow then 1 else 2) * up
    value := 4 * significand * up
    high := (4 * significand + 2) * up
    denominator := twoTo (2 - exponent).toNat
    closed := significand % 2 = 0 }

/-- The multiple of `10 ^ exponent` in the interval that is nearest to its
value, if there is one; of two equally near the even one. -/
def Interval.onGrid (interval : Interval) (exponent : Int) : Option Nat :=
  let up := tenTo (-exponent).toNat
  let unit := interval.denominator * tenTo exponent.toNat
  let below := interval.value * up / unit
  let inside (n : Nat) : Bool :=
    (interval.low * up < n * unit && n * unit < interval.high * up) ||
      (interval.closed && (interval.low * up = n * unit || n * unit = interval.high * up))
  let twice := 2 * interval.value * up
  let middle := (2 * below + 1) * unit
  match inside below, inside (below + 1) with
  | true, false => some below
  | false, true => some (below + 1)
  | true, true =>
    if twice < middle then some below
    else if middle < twice then some (below + 1)
    else some (below + below % 2)
  | false, false => none

def leading (value denominator : Nat) : Nat → Int → Int
  | 0, e => e
  | fuel + 1, e =>
    if denominator * tenTo e.toNat ≤ value * tenTo (-e).toNat then e
    else leading value denominator fuel (e - 1)

/-- Seventeen digits always suffice. -/
def search (interval : Interval) (top : Int) : Nat → Nat → Nat × Int
  | 0, _ => (0, 0)
  | fuel + 1, count =>
    let exponent := top - count
    match interval.onGrid exponent with
    | some n => (n, exponent)
    | none => search interval top fuel (count + 1)

/-- A decimal as digits and the place of the point, counted from the first
digit: `0.d₁d₂… * 10 ^ point`. -/
def digitsAndPoint (significand : Nat) (exponent : Int) (narrow : Bool) : List Nat × Int :=
  let interval := Interval.of significand exponent narrow
  let top := leading interval.value interval.denominator 700 310
  let (n, e) := search interval top 18 0
  let ds := Numeral.digits 10 n
  ((ds.reverse.dropWhile (· = 0)).reverse, ds.length + e)

/-- Positional while the point lies less than four zeros before the digits and
not after the sixteenth; otherwise one digit before the point and an exponent
of at least two digits. A number written positionally always has a point. -/
def write (ds : List Nat) (point : Int) : String :=
  let text := ds.map Numeral.lowerDigit
  if -4 < point ∧ point ≤ 16 then
    if point ≤ 0 then
      "0." ++ String.ofList (List.replicate (-point).toNat '0' ++ text)
    else
      let whole := List.rightpad point.toNat '0' (text.take point.toNat)
      let fraction := text.drop point.toNat
      String.ofList whole ++ "." ++ (if fraction.isEmpty then "0" else String.ofList fraction)
  else
    let fraction := text.drop 1
    let exponent := point - 1
    String.ofList (text.take 1) ++
      (if fraction.isEmpty then "" else "." ++ String.ofList fraction) ++
      "e" ++ (if exponent < 0 then "-" else "+") ++
      Numeral.paddedDecimal 2 exponent.natAbs

end Chip8.Shortest

namespace Chip8

open Shortest (twoTo)

def floatText (x : Float) : String :=
  let bits : Nat := x.toBits.toNat
  let sign := if bits < twoTo 63 then "" else "-"
  let exponent : Nat := bits / twoTo 52 % twoTo 11
  let fraction : Nat := bits % twoTo 52
  if exponent = 2047 then if fraction = 0 then sign ++ "inf" else "nan"
  else if exponent = 0 ∧ fraction = 0 then sign ++ "0.0"
  else
    let (ds, point) :=
      if exponent = 0 then Shortest.digitsAndPoint fraction (-1074) false
      else Shortest.digitsAndPoint (twoTo 52 + fraction) (exponent - 1075)
        (fraction = 0 ∧ 1 < exponent)
    sign ++ Shortest.write ds point

end Chip8
