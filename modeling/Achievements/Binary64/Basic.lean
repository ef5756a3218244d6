import Achievements.Binary64.Rounding

/-!
Double-precision numbers with exact arithmetic underneath.

A finite double is a sign and a number of units of 2⁻¹⁰⁷⁴. Operations compute the exact result and
round it once, to nearest with ties to even. Comparisons go through `place?`, the position on the
number line, which a NaN does not have.
-/
namespace Achievements

/-- A finite double. The magnitude is counted in units of 2⁻¹⁰⁷⁴. -/
structure Finite64 where
  neg : Bool
  units : Nat
  fits : Binary64.Fits units
  bounded : units < Binary64.limit
deriving DecidableEq

inductive Binary64
  | nan
  | inf (neg : Bool)
  | fin (x : Finite64)
deriving DecidableEq

namespace Finite64

open Binary64

def zero : Finite64 := ⟨false, 0, fits_of_lt (by decide), limit_pos⟩

instance : Inhabited Finite64 := ⟨zero⟩

def place (x : Finite64) : Int := if x.neg then -(x.units : Int) else x.units

def isZero (x : Finite64) : Bool := x.units = 0

def negate (x : Finite64) : Finite64 := { x with neg := !x.neg }

def one : Nat := twoPow 1074

end Finite64

namespace Binary64

open Finite64 (one)

/-- The double nearest to a quotient of units; past the largest one it is an infinity. -/
def round (neg : Bool) (num den : Nat) : Binary64 :=
  if h : roundUnits num den < limit then .fin ⟨neg, roundUnits num den, fits_roundUnits num den, h⟩
  else .inf neg

def ofNat (n : Nat) : Binary64 := round false (n * one) 1

def ofInt (n : Int) : Binary64 := round (n < 0) (n.natAbs * one) 1

def zero : Binary64 := .fin .zero

instance : Inhabited Binary64 := ⟨zero⟩

def isFinite : Binary64 → Bool
  | fin _ => true
  | _ => false

/-- The position on the number line in units. Infinities stand beyond every finite double, and a
NaN stands nowhere. -/
def place? : Binary64 → Option Int
  | nan => none
  | inf neg => some (if neg then -(limit : Int) else limit)
  | fin x => some x.place

def lt (x y : Binary64) : Bool :=
  match x.place?, y.place? with
  | some a, some b => a < b
  | _, _ => false

def le (x y : Binary64) : Bool :=
  match x.place?, y.place? with
  | some a, some b => a ≤ b
  | _, _ => false

/-- Equality of values: zeros of both signs are equal and a NaN differs from itself. -/
def eq (x y : Binary64) : Bool :=
  match x.place?, y.place? with
  | some a, some b => a = b
  | _, _ => false

def abs : Binary64 → Binary64
  | nan => nan
  | inf _ => inf false
  | fin x => fin { x with neg := false }

def sub : Binary64 → Binary64 → Binary64
  | nan, _ => nan
  | _, nan => nan
  | inf s, inf t => if s = t then nan else inf s
  | inf s, fin _ => inf s
  | fin _, inf t => inf !t
  | fin x, fin y =>
    let d := x.place - y.place
    round (if d = 0 then x.neg && !y.neg else d < 0) d.natAbs 1

def epsilon : Binary64 := round false (twoPow 1022) 1

/-- Truncates toward zero into 32 bits; what lies outside goes to the nearer end, a NaN to 0. -/
def toUInt32 : Binary64 → UInt32
  | nan => 0
  | inf neg => if neg then 0 else 0xffffffff
  | fin x => if x.neg then 0 else .ofNat (min (x.units / one) 0xffffffff)

def toBits : Binary64 → Nat
  | nan => 0x7ff8000000000000
  | inf neg => sign neg + 0x7ff0000000000000
  | fin x =>
    let e := gridExponent x.units 1
    sign x.neg + if x.units < twoPow 52 then x.units
      else (e + 1) * twoPow 52 + (x.units / twoPow e - twoPow 52)
where
  sign (neg : Bool) : Nat := if neg then twoPow 63 else 0

end Binary64

namespace Finite64

def mul (x y : Finite64) : Binary64 := .round (x.neg != y.neg) (x.units * y.units) one

/-- The divisor is not zero. -/
def div (x y : Finite64) : Binary64 := .round (x.neg != y.neg) (x.units * one) y.units

end Finite64

end Achievements
