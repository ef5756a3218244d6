import Achievements.Decimal.Basic

namespace Achievements.Decimal

def sign : List Char → Bool × List Char
  | '-' :: cs => (true, cs)
  | '+' :: cs => (false, cs)
  | cs => (false, cs)

def natural? (cs : List Char) : Option Nat :=
  if cs ≠ [] ∧ cs.all Char.isDigit then some (ofDigits cs) else none

def unsigned? : List Char → Option Nat
  | '+' :: cs => natural? cs
  | cs => natural? cs

def integer? (cs : List Char) : Option Int :=
  (natural? (sign cs).2).map fun n => if (sign cs).1 then -(n : Int) else n

def exponent? : List Char → Option Int
  | [] => some 0
  | c :: cs => if c = 'e' ∨ c = 'E' then integer? cs else none

/-- Digits with a point before, between or behind them, and an optional exponent. -/
def unsignedDecimal? (cs : List Char) : Option Decimal :=
  let whole := cs.takeWhile Char.isDigit
  let rest := cs.dropWhile Char.isDigit
  let tail := match rest with
    | '.' :: tail => some tail
    | _ => none
  let frac := (tail.getD []).takeWhile Char.isDigit
  let rest := (tail.map (·.dropWhile Char.isDigit)).getD rest
  if whole = [] ∧ frac = [] then none
  else (exponent? rest).map fun e => ⟨ofDigits (whole ++ frac), e - frac.length⟩

/-- A decimal with an optional sign, or the name of an infinity or a NaN in any case. -/
def float? (cs : List Char) : Option Binary64 :=
  let (neg, rest) := sign cs
  let name := String.ofList (rest.map Char.toLower)
  if name = "nan" then some .nan
  else if name = "inf" ∨ name = "infinity" then some (.inf neg)
  else (unsignedDecimal? rest).map (toBinary64 neg)

end Achievements.Decimal
