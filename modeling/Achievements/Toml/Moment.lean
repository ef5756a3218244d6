import Achievements.Decimal.Basic

/-!
Dates and times of TOML. They are kept as texts in one spelling: a `T` between date and time, at
most nine places of a second and no zeros behind them, and `+00:00` for an offset of nothing.
-/
namespace Achievements.Toml

def field? (n lo hi : Nat) (cs : List Char) : Option (List Char × List Char) :=
  let ds := cs.take n
  if ds.length = n ∧ ds.all Char.isDigit ∧ lo ≤ Decimal.ofDigits ds ∧ Decimal.ofDigits ds ≤ hi then
    some (ds, cs.drop n)
  else none

def expect? (c : Char) : List Char → Option (List Char)
  | d :: cs => if d = c then some cs else none
  | [] => none

def daysIn (year month : Nat) : Nat :=
  if month = 2 then
    if year % 4 = 0 ∧ (year % 100 ≠ 0 ∨ year % 400 = 0) then 29 else 28
  else if month = 4 ∨ month = 6 ∨ month = 9 ∨ month = 11 then 30
  else 31

def date? (cs : List Char) : Option (List Char × List Char) := do
  let (year, cs) ← field? 4 0 9999 cs
  let (month, cs) ← field? 2 1 12 (← expect? '-' cs)
  let days := daysIn (Decimal.ofDigits year) (Decimal.ofDigits month)
  let (day, cs) ← field? 2 1 days (← expect? '-' cs)
  return (year ++ '-' :: month ++ '-' :: day, cs)

def fraction (cs : List Char) : List Char × List Char :=
  match cs with
  | '.' :: ds =>
    match ds.takeWhile Char.isDigit with
    | [] => ([], cs)
    | places =>
      let kept := ((places.take 9).reverse.dropWhile (· = '0')).reverse
      (if kept = [] then [] else '.' :: kept, ds.dropWhile Char.isDigit)
  | cs => ([], cs)

def time? (cs : List Char) : Option (List Char × List Char) := do
  let (hour, cs) ← field? 2 0 23 cs
  let (minute, cs) ← field? 2 0 59 (← expect? ':' cs)
  let (second, cs) ← field? 2 0 60 (← expect? ':' cs)
  let (frac, cs) := fraction cs
  return (hour ++ ':' :: minute ++ ':' :: second ++ frac, cs)

def offset? (cs : List Char) : Option (List Char × List Char) :=
  match cs with
  | [] => none
  | c :: cs =>
    if c = 'Z' ∨ c = 'z' then some (['Z'], cs)
    else if c = '+' ∨ c = '-' then do
      let (hour, cs) ← field? 2 0 23 cs
      let (minute, cs) ← field? 2 0 59 (← expect? ':' cs)
      let text := hour ++ ':' :: minute
      return ((if text = "00:00".toList then '+' else c) :: text, cs)
    else none

def timeBehind (cs : List Char) : List Char × List Char :=
  match cs with
  | c :: after =>
    if c = 'T' ∨ c = 't' ∨ c = ' ' then
      match time? after with
      | some (time, cs) =>
        let (offset, cs) := (offset? cs).getD ([], cs)
        ('T' :: time ++ offset, cs)
      | none => ([], cs)
    else ([], cs)
  | [] => ([], [])

def moment? (cs : List Char) : Option (List Char × List Char) :=
  match date? cs with
  | some (date, cs) =>
    let (time, cs) := timeBehind cs
    some (date ++ time, cs)
  | none => time? cs

end Achievements.Toml
