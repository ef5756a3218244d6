import Achievements.Decimal.Basic

/-!
The fewest decimal digits that read back as a given double.

On the grid of `n` digits the double has two neighbours; the first grid on which one of them reads
back decides, and of two hits the nearer one is taken. Where both are equally near a choice is left
to the format. Seventeen digits always suffice.
-/
namespace Achievements.Decimal

/-- Significant digits and the place of the point: the value is `0.d₁d₂… · 10 ^ point`. -/
structure Digits where
  digits : List Char
  point : Int
deriving DecidableEq

def width (n : Nat) : Nat := (Nat.toDigits 10 n).length

/-- The place of the point for a positive number of units: the value lies in
`[10 ^ (point - 1), 10 ^ point)`. -/
def pointOf (units : Nat) : Int :=
  if Finite64.one ≤ units then width (units / Finite64.one)
  else 1 - (width ((Finite64.one - 1) / units) : Int)

def readsAs (units : Nat) (d : Decimal) : Bool :=
  match d.toBinary64 false with
  | .fin x => x.units = units
  | _ => false

/-- Which of two decimals is taken when a double lies halfway between them. -/
inductive Tie
  | toEven
  | up
deriving DecidableEq

def Tie.prefersLow (tie : Tie) (q r den : Nat) : Bool :=
  if 2 * r = den then
    match tie with
    | toEven => q % 2 = 0
    | up => false
  else 2 * r < den

/-- The neighbour on the grid `10 ^ exp` that reads back, the nearer one if both do. -/
def onGrid (tie : Tie) (units : Nat) (exp : Int) : Option Decimal :=
  let num := if 0 ≤ exp then units else units * tenPow (-exp).toNat
  let den := if 0 ≤ exp then Finite64.one * tenPow exp.toNat else Finite64.one
  let low : Decimal := ⟨num / den, exp⟩
  let high : Decimal := ⟨num / den + 1, exp⟩
  let nearer := if tie.prefersLow (num / den) (num % den) den then (low, high) else (high, low)
  if readsAs units nearer.1 then some nearer.1
  else if readsAs units nearer.2 then some nearer.2
  else none

/-- A decimal that reads back, with as few digits as possible. -/
def shortest (tie : Tie) (units : Nat) : Decimal :=
  let point := pointOf units
  ((List.range 17).findSome? fun n : Nat => onGrid tie units (point - (n + 1))).getD ⟨0, 0⟩

def toDigits (d : Decimal) : Digits :=
  if d.coeff = 0 then ⟨['0'], 1⟩
  else
    let ds := Nat.toDigits 10 d.coeff
    ⟨(ds.reverse.dropWhile (· = '0')).reverse, ds.length + d.exp⟩

def ofUnits (tie : Tie) (units : Nat) : Digits :=
  if units = 0 then ⟨['0'], 1⟩ else (shortest tie units).toDigits

end Achievements.Decimal
