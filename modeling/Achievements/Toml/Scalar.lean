import Achievements.Json.Quoted
import Achievements.Number

namespace Achievements.Toml

def joined (ok : Char → Bool) : List Char → Option (List Char)
  | [] => none
  | [d] => if ok d then some [d] else none
  | d :: '_' :: ds => if ok d then (joined ok ds).map (d :: ·) else none
  | d :: ds => if ok d then (joined ok ds).map (d :: ·) else none

def isRadixDigit (radix : Nat) (c : Char) : Bool :=
  match Json.hexDigit? c with
  | some n => n < radix
  | none => false

def radixNumber (radix : Nat) (cs : List Char) : Option Int :=
  (joined (isRadixDigit radix) cs).map fun ds =>
    (ds.foldl (fun n d => radix * n + ((Json.hexDigit? d).getD 0)) 0 : Nat)

def plainDigits (cs : List Char) : Option (List Char) :=
  (joined Char.isDigit cs).bind fun ds =>
    if ds.length > 1 ∧ ds.head? = some '0' then none else some ds

def integer (cs : List Char) : Option Int :=
  match cs with
  | '0' :: 'x' :: cs => radixNumber 16 cs
  | '0' :: 'o' :: cs => radixNumber 8 cs
  | '0' :: 'b' :: cs => radixNumber 2 cs
  | cs =>
    let (neg, ds) := Decimal.sign cs
    (plainDigits ds).map fun ds => if neg then -(Decimal.ofDigits ds : Int) else Decimal.ofDigits ds

def exponent : List Char → Option Int
  | [] => some 0
  | _ :: cs =>
    let (neg, ds) := Decimal.sign cs
    (joined Char.isDigit ds).map fun ds =>
      if neg then -(Decimal.ofDigits ds : Int) else Decimal.ofDigits ds

def decimal (cs : List Char) : Option Decimal := do
  let isMark (c : Char) : Bool := c = 'e' || c = 'E'
  let mantissa := cs.takeWhile fun c => !isMark c
  let tail := cs.dropWhile fun c => !isMark c
  let whole ← plainDigits (mantissa.takeWhile (· ≠ '.'))
  let frac ← match mantissa.dropWhile (· ≠ '.') with
    | [] => if tail = [] then none else some []
    | _ :: cs => joined Char.isDigit cs
  return ⟨Decimal.ofDigits (whole ++ frac), (← exponent tail) - frac.length⟩

/-- A decimal past the largest double is an error, one below the smallest is an infinity. -/
def float (cs : List Char) : Option Binary64 :=
  let (neg, cs) := Decimal.sign cs
  if cs = "inf".toList then some (.inf neg)
  else if cs = "nan".toList then some .nan
  else
    (decimal cs).bind fun d =>
      let x := d.toBinary64 neg
      if x = .inf false then none else some x

def isScalarChar (c : Char) : Bool := c.isAlphanum || c = '_' || c = '+' || c = '-' || c = '.'

end Achievements.Toml
