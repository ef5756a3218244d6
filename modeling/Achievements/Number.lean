import Achievements.Decimal.Layout
import Achievements.Decimal.Literal
import Achievements.Text.Blank

namespace Achievements

/-- A literal with a point is a double: `2000` and `2000.0` are different numbers of one value. -/
inductive Number
  | int (n : Int64)
  | float (x : Binary64)
deriving DecidableEq

def int64? (n : Int) : Option Int64 :=
  if -0x8000000000000000 ≤ n ∧ n < 0x8000000000000000 then some (.ofInt n) else none

def uint32? (n : Nat) : Option UInt32 := if n < 0x100000000 then some (.ofNat n) else none

namespace Number

def value : Number → Binary64
  | int n => .ofInt n.toInt
  | float x => x

def isInt : Number → Bool
  | int _ => true
  | float _ => false

/-- Reads a literal; a decimal past the largest double is none. -/
def ofLiteral? (text : List Char) : Option Number :=
  let cs := Text.trim text
  if '.' ∈ cs then (Decimal.float? cs).bind fun x => if x.isFinite then some (.float x) else none
  else (Decimal.integer? cs).bind fun n => (int64? n).map .int

/-- Equality of numbers: a double is compared by value, and never equals an integer. -/
def agrees : Number → Number → Bool
  | int m, int n => m = n
  | float x, float y => x.eq y
  | _, _ => false

end Number

/-- Numbers shown to people have no exponent and no `.0`, and a tie goes up. -/
def plainLayout : Decimal.Layout := ⟨fun _ => true, false, .up⟩

def Binary64.plain : Binary64 → List Char
  | nan => ['N', 'a', 'N']
  | inf neg => (if neg then ['-'] else []) ++ ['i', 'n', 'f']
  | fin x => x.write plainLayout

def integerText (n : Int) : List Char :=
  (if n < 0 then ['-'] else []) ++ Nat.toDigits 10 n.natAbs

def Number.display : Number → List Char
  | int n => integerText n.toInt
  | float x => x.plain

def maskOfLiteral? (text : List Char) : Option UInt32 :=
  (Decimal.unsigned? (Text.trim text)).bind uint32?

end Achievements
