import Achievements.Json.Quoted
import Achievements.Toml.Line

namespace Achievements.Toml

def codePoint? (ds : List Char) : Option Char := do
  let n ← ds.foldlM (fun n d => (Json.hexDigit? d).map (16 * n + ·)) 0
  if n < 0xD800 ∨ (0xE000 ≤ n ∧ n < 0x110000) then some (.ofNat n) else none

/-- The escapes of one letter are those of JSON without the slash. -/
def unescape? (c : Char) : Option Char := if c = '/' then none else Json.unescape? c

def consChar (c : Char) (r : Option (List Char × List Char)) : Option (List Char × List Char) :=
  r.map fun (s, rest) => (c :: s, rest)

def basic : List Char → Option (List Char × List Char)
  | [] => none
  | '"' :: cs => some ([], cs)
  | '\\' :: 'u' :: a :: b :: c :: d :: cs =>
    (codePoint? [a, b, c, d]).bind fun x => consChar x (basic cs)
  | '\\' :: 'U' :: a :: b :: c :: d :: e :: f :: g :: h :: cs =>
    (codePoint? [a, b, c, d, e, f, g, h]).bind fun x => consChar x (basic cs)
  | '\\' :: c :: cs => (unescape? c).bind fun x => consChar x (basic cs)
  | '\\' :: [] => none
  | c :: cs => if isControl c then none else consChar c (basic cs)

def literal : List Char → Option (List Char × List Char)
  | [] => none
  | '\'' :: cs => some ([], cs)
  | c :: cs => if isControl c then none else consChar c (literal cs)

/-- The end of a string in three quotes, from behind the first: up to two more quotes belong to the
string. -/
def closing? (quote : Char) : List Char → Option (List Char × List Char)
  | a :: b :: cs =>
    if a = quote ∧ b = quote then
      match cs with
      | c :: d :: cs =>
        if c = quote ∧ d = quote then some ([quote, quote], cs)
        else if c = quote then some ([quote], d :: cs)
        else some ([], c :: d :: cs)
      | [c] => if c = quote then some ([quote], []) else some ([], [c])
      | [] => some ([], [])
    else none
  | _ => none

def atLineEnd (cs : List Char) : Bool := (lineEnd? (skipSpaces cs)).isSome

/-- A string with escapes over several lines. With `skip`, spaces and line ends are left out: a
backslash at the end of a line starts that. -/
def longBasic (skip : Bool) : List Char → Option (List Char × List Char)
  | [] => none
  | c :: cs =>
    if skip ∧ (isSpace c ∨ (lineEnd? (c :: cs)).isSome) then longBasic true cs
    else if c = '\\' then
      if atLineEnd cs then longBasic true cs
      else
        match cs with
        | 'u' :: a :: b :: c :: d :: cs =>
          (codePoint? [a, b, c, d]).bind fun x => consChar x (longBasic false cs)
        | 'U' :: a :: b :: c :: d :: e :: f :: g :: h :: cs =>
          (codePoint? [a, b, c, d, e, f, g, h]).bind fun x => consChar x (longBasic false cs)
        | c :: cs => (unescape? c).bind fun x => consChar x (longBasic false cs)
        | [] => none
    else if c = '"' then (closing? '"' cs).or (consChar '"' (longBasic false cs))
    else if c = '\n' then consChar '\n' (longBasic false cs)
    else if c = '\r' then if cs.head? = some '\n' then longBasic false cs else none
    else if isControl c then none
    else consChar c (longBasic false cs)

def longLiteral : List Char → Option (List Char × List Char)
  | [] => none
  | c :: cs =>
    if c = '\'' then (closing? '\'' cs).or (consChar '\'' (longLiteral cs))
    else if c = '\n' then consChar '\n' (longLiteral cs)
    else if c = '\r' then if cs.head? = some '\n' then longLiteral cs else none
    else if isControl c then none
    else consChar c (longLiteral cs)

def dropLineEnd (cs : List Char) : List Char := (lineEnd? cs).getD cs

def quoted? : List Char → Option (List Char × List Char)
  | '"' :: '"' :: '"' :: cs => longBasic false (dropLineEnd cs)
  | '"' :: cs => basic cs
  | '\'' :: '\'' :: '\'' :: cs => longLiteral (dropLineEnd cs)
  | '\'' :: cs => literal cs
  | _ => none

end Achievements.Toml
