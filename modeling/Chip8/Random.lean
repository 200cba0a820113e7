import Chip8.LongInteger

/-!
# The random stream

A key of two 32-bit words. A draw splits it into one key to go on with and another
for the byte, by encrypting small counters under the key: Threefry-2x32 with
twenty rounds.
-/

namespace Chip8.Random

structure Key where
  first : BitVec 32
  second : BitVec 32
  deriving DecidableEq

def mix (distances : List Nat) (words : Key) : Key :=
  distances.foldl (fun ⟨a, b⟩ r => ⟨a + b, b.rotateLeft r ^^^ (a + b)⟩) words

/-- Which three of the round constants go into one turn. -/
def schedule (key : Key) : List (BitVec 32) :=
  [key.first, key.second, key.first ^^^ key.second ^^^ 0x1BD11BDA]

def turn (key : Key) (words : Key) (i : Nat) : Key :=
  let ks (j : Nat) : BitVec 32 := (schedule key)[j % 3]?.getD 0
  let ⟨a, b⟩ := mix (if i % 2 = 0 then [13, 15, 26, 6] else [17, 29, 16, 24]) words
  ⟨a + ks (i + 1), b + ks (i + 2) + BitVec.ofNat 32 (i + 1)⟩

def encrypt (key : Key) (first second : BitVec 32) : Key :=
  (List.range 5).foldl (turn key) ⟨first + key.first, second + key.second⟩

namespace Key

/-- A seed has to fit a long integer; its low half makes the key. -/
def ofSeed? (seed : Int) : Option Key :=
  if LongInteger.Fits seed then some ⟨0, BitVec.ofInt 32 seed⟩ else none

/-- The key to go on with, and the one to draw from. -/
def split (key : Key) : Key × Key :=
  (encrypt key 0 0, encrypt key 0 1)

/-- A number is drawn from both halves of its key, but a byte only from the second. -/
def byte (key : Key) : BitVec 8 :=
  let ⟨a, b⟩ := encrypt key.split.2 0 0
  (a ^^^ b).setWidth 8

def after (key : Key) (draws : Nat) : Key :=
  Nat.repeat (fun key => key.split.1) draws key

theorem after_succ (key : Key) (draws : Nat) :
    key.after (draws + 1) = (key.after draws).split.1 := rfl

end Key

end Chip8.Random
