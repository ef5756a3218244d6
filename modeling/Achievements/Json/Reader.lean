import Achievements.Json.Numeral
import Achievements.Json.Quoted

namespace Achievements.Json

abbrev Reader (α : Type) : Type := List Char → Except Fault (α × List Char)

def isBlank (c : Char) : Bool := c = ' ' || c = '\t' || c = '\n' || c = '\r'

def skipBlanks (cs : List Char) : List Char := cs.dropWhile isBlank

def keyword : List Char → List Char → Except Fault (List Char)
  | [], cs => .ok cs
  | _ :: _, [] => .error .eof
  | p :: ps, c :: cs => if p = c then keyword ps cs else .error .malformed

def scalar : Reader Json
  | [] => .error .eof
  | 'n' :: cs => (keyword ['u', 'l', 'l'] cs).map (null, ·)
  | 't' :: cs => (keyword ['r', 'u', 'e'] cs).map (bool true, ·)
  | 'f' :: cs => (keyword ['a', 'l', 's', 'e'] cs).map (bool false, ·)
  | '"' :: cs => (readQuoted cs).map fun (s, rest) => (str s, rest)
  | c :: cs => if c = '-' ∨ c.isDigit then readNumber (c :: cs) else .error .malformed

inductive Next
  | closed (rest : List Char)
  | item (cs : List Char)

def nextItem (first : Bool) (cs : List Char) : Except Fault Next :=
  match skipBlanks cs with
  | [] => .error .eof
  | ']' :: rest => .ok (.closed rest)
  | ',' :: cs =>
    if first then .ok (.item (',' :: cs))
    else
      match skipBlanks cs with
      | [] => .error .eof
      | ']' :: _ => .error .malformed
      | cs => .ok (.item cs)
  | cs => if first then .ok (.item cs) else .error .malformed

def nextKey (first : Bool) (cs : List Char) : Except Fault Next :=
  match skipBlanks cs with
  | [] => .error .eof
  | '\x7d' :: rest => .ok (.closed rest)
  | '"' :: cs => if first then .ok (.item cs) else .error .malformed
  | ',' :: cs =>
    if first then .error .malformed
    else
      match skipBlanks cs with
      | [] => .error .eof
      | '"' :: cs => .ok (.item cs)
      | _ => .error .malformed
  | _ => .error .malformed

def colon (cs : List Char) : Except Fault (List Char) :=
  match skipBlanks cs with
  | [] => .error .eof
  | ':' :: cs => .ok cs
  | _ => .error .malformed

def items {α : Type} (item : Reader α) : Nat → Bool → Reader (List α)
  | 0, _, _ => .error .malformed
  | fuel + 1, first, cs => do
    match ← nextItem first cs with
    | .closed rest => return ([], rest)
    | .item cs =>
      let (x, cs) ← item cs
      let (xs, cs) ← items item fuel false cs
      return (x :: xs, cs)

/-- Goes through the members of an object with a state. A step starts right behind the key, before the
colon. The fuel bounds their number. -/
def members {σ : Type} (step : σ → String → Reader σ) : Nat → Bool → σ → Reader σ
  | 0, _, _, _ => .error .malformed
  | fuel + 1, first, s, cs => do
    match ← nextKey first cs with
    | .closed rest => return (s, rest)
    | .item cs =>
      let (key, cs) ← readQuoted cs
      let (s, cs) ← step s key cs
      members step fuel false s cs

def allItems {α : Type} (item : Reader α) (first : Bool) : Reader (List α) := fun cs =>
  items item (cs.length + 1) first cs

def allMembers {σ : Type} (step : σ → String → Reader σ) (s : σ) : Reader σ := fun cs =>
  members step (cs.length + 1) true s cs

/-- A value with at most this many levels of brackets. -/
def value : Nat → Reader Json
  | 0, cs =>
    match skipBlanks cs with
    | '[' :: _ => .error .malformed
    | '\x7b' :: _ => .error .malformed
    | cs => scalar cs
  | depth + 1, cs =>
    match skipBlanks cs with
    | '[' :: cs => (allItems (value depth) true cs).map fun (vs, rest) => (arr vs, rest)
    | '\x7b' :: cs =>
      (allMembers (fun ms key cs => do
        let (v, rest) ← value depth (← colon cs)
        return ((key, v) :: ms, rest)) [] cs).map fun (ms, rest) => (obj ms.reverse, rest)
    | cs => scalar cs

def maxDepth : Nat := 127

inductive Bracket
  | square
  | curly
deriving DecidableEq

def skipKey : Bracket → List Char → Except Fault (List Char)
  | .square, cs => .ok cs
  | .curly, cs =>
    match skipBlanks cs with
    | [] => .error .eof
    | '"' :: cs => (skipChars cs).bind colon
    | _ => .error .malformed

/-- Skips a scalar. Numbers are not computed, and one that breaks off is malformed. -/
def skipScalar : List Char → Except Fault (List Char)
  | [] => .error .eof
  | 'n' :: cs => keyword ['u', 'l', 'l'] cs
  | 't' :: cs => keyword ['r', 'u', 'e'] cs
  | 'f' :: cs => keyword ['a', 'l', 's', 'e'] cs
  | '"' :: cs => skipChars cs
  | c :: cs =>
    if c = '-' ∨ c.isDigit then
      match Numeral.read (c :: cs) with
      | .ok (_, rest) => .ok rest
      | .error _ => .error .malformed
    else .error .malformed

/-- Where a skipped text goes on: a value starts, a bracket has just been opened, or a value has
just ended. The brackets still open are kept, the innermost first. -/
inductive Place
  | value
  | opened
  | ended

def skipFrom : Nat → Place → List Bracket → List Char → Except Fault (List Char)
  | 0, _, _, _ => .error .malformed
  | fuel + 1, .value, open?, cs =>
    match skipBlanks cs with
    | '[' :: cs => skipFrom fuel .opened (.square :: open?) cs
    | '\x7b' :: cs => skipFrom fuel .opened (.curly :: open?) cs
    | cs => do skipFrom fuel .ended open? (← skipScalar cs)
  | _ + 1, _, [], cs => .ok cs
  | fuel + 1, place, b :: open?, cs =>
    match skipBlanks cs with
    | [] => .error .eof
    | c :: cs =>
      match place, b, c with
      | _, .square, ']' => skipFrom fuel .ended open? cs
      | _, .curly, '\x7d' => skipFrom fuel .ended open? cs
      | .ended, _, ',' => do skipFrom fuel .value (b :: open?) (← skipKey b cs)
      | .ended, _, _ => .error .malformed
      | _, _, _ => do skipFrom fuel .value (b :: open?) (← skipKey b (c :: cs))

def skip : List Char → Except Fault (List Char) := fun cs =>
  skipFrom (2 * cs.length + 2) .value [] cs

/-- A scalar of a certain kind. An array or object is refused at its bracket. -/
def scalarOf {α : Type} (expected : String) (pick : Json → Except Mismatch α) : Reader α :=
  fun cs =>
  match skipBlanks cs with
  | '[' :: _ => .error (.mismatch (.type .sequence expected))
  | '\x7b' :: _ => .error (.mismatch (.type .map expected))
  | cs => do
    let (v, rest) ← scalar cs
    match pick v with
    | .ok x => return (x, rest)
    | .error m => .error (.mismatch m)

def readAll {α : Type} (reader : Reader α) (text : String) : Except Fault α := do
  let (x, rest) ← reader text.toList
  if skipBlanks rest = [] then return x else .error .malformed

/-- Any value, its objects in sorted form. -/
def parse (text : String) : Except Fault Json := (readAll (value maxDepth) text).map sorted

end Achievements.Json
