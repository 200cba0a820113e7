import Chip8.Text.Integer
import Chip8.Text.Quoted
import Chip8.Text.Shortest

/-!
# Values from outside

A host may offer any value where a key number is wanted. The machine has to
recognise the numbers among them and to name the others in its complaint, where
they can be shown at all (`Datum.keyName?`).
-/

namespace Chip8

inductive Datum where
  | null
  | truth (value : Bool)
  | whole (value : Int)
  | real (value : Float)
  | text (value : String)
  | list (items : List Datum)
  | record (fields : List (String × Datum))
  deriving Inhabited

namespace Datum

def isTrue : Datum → Bool
  | .null => false
  | .truth value => value
  | .whole value => value ≠ 0
  | .real value => value != 0
  | .text value => value ≠ ""
  | .list items => !items.isEmpty
  | .record fields => !fields.isEmpty

mutual
/-- The value as a message shows it. Nothing is shown of a value with a whole number
of too many digits in it. -/
def shown? : Datum → Option String
  | .null => some "None"
  | .truth true => some "True"
  | .truth false => some "False"
  | .whole value => if Integer.Short value then some (Numeral.decimal value) else none
  | .real value => some (floatText value)
  | .text value => some (quoted value)
  | .list items => do return "[" ++ ", ".intercalate (← shownItems? items) ++ "]"
  | .record fields => do return "\x7b" ++ ", ".intercalate (← shownFields? fields) ++ "\x7d"
def shownItems? : List Datum → Option (List String)
  | [] => some []
  | item :: rest => do return (← item.shown?) :: (← shownItems? rest)
def shownFields? : List (String × Datum) → Option (List String)
  | [] => some []
  | (name, value) :: rest =>
    do return (quoted name ++ ": " ++ (← value.shown?)) :: (← shownFields? rest)
end

/-- Only a whole number from 0 to 15 names a key: a truth value does not, nor
does a fraction that happens to be whole. -/
def key? : Datum → Option (Fin 16)
  | .whole value =>
    if h : 0 ≤ value ∧ value < 16 then some ⟨value.toNat, by omega⟩ else none
  | _ => none

theorem key?_eq_some_iff {datum : Datum} {key : Fin 16} :
    datum.key? = some key ↔ datum = .whole key.val := by
  cases datum <;> simp [key?]
  next value =>
    constructor
    · rintro ⟨h, rfl⟩; simp; omega
    · rintro rfl; exact ⟨by omega, by simp⟩

end Datum

inductive KeyName where
  | key (index : Fin 16)
  | unknown (shown : String)
  deriving DecidableEq

def Datum.keyName? (datum : Datum) : Option KeyName :=
  match datum.key? with
  | some key => some (.key key)
  | none => datum.shown?.map .unknown

theorem Datum.keyName?_eq_key_iff {datum : Datum} {key : Fin 16} :
    datum.keyName? = some (.key key) ↔ datum = .whole key.val := by
  rw [← key?_eq_some_iff, keyName?]
  cases datum.key? with
  | none => cases datum.shown? <;> simp
  | some named => simp

end Chip8
