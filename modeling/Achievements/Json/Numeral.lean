import Achievements.Decimal.Basic
import Achievements.Json.Fault

/-!
Numbers in JSON texts: the grammar, and the value of a numeral.

An integer that fits in 64 bits is exact. Any other numeral is a double, computed from the leading
digits that fit in 64 bits by one multiplication or division with a power of ten, so its last bit
need not be the nearest one.
-/
namespace Achievements.Json

structure Numeral where
  neg : Bool
  whole : List Char
  frac : List Char
  exp : Option (Bool × List Char)

namespace Numeral

def someDigits (cs : List Char) : Except Fault (List Char × List Char) :=
  match cs with
  | [] => .error .eof
  | c :: _ =>
    if c.isDigit then .ok (cs.takeWhile Char.isDigit, cs.dropWhile Char.isDigit)
    else .error .malformed

/-- The part before the point, where only a lone zero may start with one. -/
def wholePart (cs : List Char) : Except Fault (List Char × List Char) := do
  let (ds, rest) ← someDigits cs
  if ds.head? = some '0' ∧ ds ≠ ['0'] then .error .malformed else .ok (ds, rest)

def fraction : List Char → Except Fault (List Char × List Char)
  | '.' :: cs => someDigits cs
  | cs => .ok ([], cs)

def exponent : List Char → Except Fault (Option (Bool × List Char) × List Char)
  | [] => .ok (none, [])
  | c :: cs =>
    if c = 'e' ∨ c = 'E' then
      let (neg, cs) := match cs with
        | '-' :: cs => (true, cs)
        | '+' :: cs => (false, cs)
        | cs => (false, cs)
      (someDigits cs).map fun (ds, rest) => (some (neg, ds), rest)
    else .ok (none, c :: cs)

def read (cs : List Char) : Except Fault (Numeral × List Char) := do
  let (neg, cs) := match cs with
    | '-' :: cs => (true, cs)
    | cs => (false, cs)
  let (whole, cs) ← wholePart cs
  let (frac, cs) ← fraction cs
  let (exp, cs) ← exponent cs
  return (⟨neg, whole, frac, exp⟩, cs)

/-- Takes digits into a number below 2⁶⁴; at the first one that does not fit it stops, and says how
many are left. -/
def collect (s : Nat) : List Char → Nat × Nat
  | [] => (s, 0)
  | d :: ds =>
    let s' := 10 * s + (d.toNat - '0'.toNat)
    if s' < 0x10000000000000000 then collect s' ds else (s, ds.length + 1)

def maxExponent : Nat := 0x7fffffff

def clampExponent (e : Int) : Int := max (-0x80000000) (min e maxExponent)

def finite? : Binary64 → Option Finite64
  | .fin x => some x
  | _ => none

def powerOfTen (n : Nat) : Finite64 := (finite? (.ofNat (Decimal.tenPow n))).getD .zero

/-- Multiplies by a power of ten, in steps of at most 308 places; none if the product overflows. Two
steps downward bring every number below 2⁶⁴ to zero, so four are more than enough. -/
def scale : Nat → Finite64 → Int → Option Finite64
  | 0, _, _ => some .zero
  | steps + 1, x, e =>
    if e.natAbs ≤ 308 then
      if 0 ≤ e then finite? (x.mul (powerOfTen e.natAbs)) else finite? (x.div (powerOfTen e.natAbs))
    else if x.isZero then some x
    else if 0 ≤ e then none
    else (finite? (x.div (powerOfTen 308))).bind fun y => scale steps y (e + 308)

def magnitude (n : Numeral) : Option Finite64 :=
  let (s, dropped) := collect 0 n.whole
  let (s, left) := collect s n.frac
  let e : Int := dropped - (n.frac.length - left : Nat)
  match n.exp with
  | none => (finite? (.ofNat s)).bind (scale 4 · e)
  | some (neg, ds) =>
    let written := Decimal.ofDigits ds
    if written ≤ maxExponent then
      (finite? (.ofNat s)).bind (scale 4 · (clampExponent (if neg then e - written else e + written)))
    else if s = 0 ∨ neg then some .zero
    else none

/-- The integer that a numeral without point and exponent writes, if it can be held. A negative
zero cannot. -/
def integer? (n : Numeral) : Option Integer :=
  if n.frac = [] ∧ n.exp = none then
    let m := Decimal.ofDigits n.whole
    if n.neg then if m = 0 then none else Integer.ofInt? (-m) else Integer.ofInt? m
  else none

def value? (n : Numeral) : Option Json :=
  match n.integer? with
  | some i => some (.int i)
  | none => n.magnitude.map fun x => .float { x with neg := n.neg }

end Numeral

def readNumber (cs : List Char) : Except Fault (Json × List Char) := do
  let (n, rest) ← Numeral.read cs
  match n.value? with
  | some v => return (v, rest)
  | none => .error .malformed

end Achievements.Json
