import Achievements.Binary64.Basic

namespace Achievements

/-- The value `coeff · 10 ^ exp`. -/
structure Decimal where
  coeff : Nat
  exp : Int
deriving DecidableEq

namespace Decimal

def tenPow (n : Nat) : Nat := Nat.pow 10 n

def ofDigits (ds : List Char) : Nat := ds.foldl (fun n d => 10 * n + (d.toNat - '0'.toNat)) 0

/-- The nearest double. The first two cases only keep the powers of ten small: a positive
coefficient with more than 400 places is past every double, one with 400 zeros behind the point is
nearer to 0 than to any other. -/
def toBinary64 (neg : Bool) (d : Decimal) : Binary64 :=
  if d.coeff ≠ 0 ∧ 400 < d.exp then .inf neg
  else if d.coeff = 0 ∨ d.exp < -400 - d.coeff.log2 then .fin { Finite64.zero with neg }
  else if 0 ≤ d.exp then .round neg (d.coeff * tenPow d.exp.toNat * Finite64.one) 1
  else .round neg (d.coeff * Finite64.one) (tenPow (-d.exp).toNat)

end Decimal

end Achievements
