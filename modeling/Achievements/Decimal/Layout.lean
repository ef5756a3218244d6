import Achievements.Decimal.Shortest

namespace Achievements.Decimal

structure Layout where
  /-- Places of the point that are written without an exponent. -/
  positional : Int → Bool
  pointZero : Bool
  tie : Tie

def zeros (n : Nat) : List Char := List.replicate n '0'

def Digits.plain (d : Digits) (pointZero : Bool) : List Char :=
  if d.point ≤ 0 then '0' :: '.' :: (zeros (-d.point).toNat ++ d.digits)
  else
    let k := d.point.toNat
    if d.digits.length ≤ k then
      d.digits ++ zeros (k - d.digits.length) ++ if pointZero then ['.', '0'] else []
    else d.digits.take k ++ '.' :: d.digits.drop k

def Digits.scientific (d : Digits) : List Char :=
  let e := d.point - 1
  d.digits.take 1 ++ (if d.digits.length = 1 then [] else '.' :: d.digits.drop 1) ++
    'e' :: (if e < 0 then '-' else '+') :: Nat.toDigits 10 e.natAbs

def Digits.write (l : Layout) (d : Digits) : List Char :=
  if l.positional d.point then d.plain l.pointZero else d.scientific

end Achievements.Decimal

namespace Achievements.Finite64

def write (l : Decimal.Layout) (x : Finite64) : List Char :=
  (if x.neg then ['-'] else []) ++ (Decimal.ofUnits l.tie x.units).write l

end Achievements.Finite64
