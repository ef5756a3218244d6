import Achievements.Json.Fault

namespace Achievements.Json

def hexDigit? (c : Char) : Option Nat :=
  if c.isDigit then some (c.toNat - '0'.toNat)
  else if 'a' ≤ c ∧ c ≤ 'f' then some (c.toNat - 'a'.toNat + 10)
  else if 'A' ≤ c ∧ c ≤ 'F' then some (c.toNat - 'A'.toNat + 10)
  else none

def codeUnit? (a b c d : Char) : Option Nat := do
  return (((← hexDigit? a) * 16 + (← hexDigit? b)) * 16 + (← hexDigit? c)) * 16 + (← hexDigit? d)

/-- Too few characters for a code unit. Whether the text ends too early is a matter of its bytes. -/
def shortCodeUnit (cs : List Char) : Fault :=
  if (String.ofList cs).utf8ByteSize < 4 then .eof else .malformed

def unescape? : Char → Option Char
  | '"' => some '"'
  | '\\' => some '\\'
  | '/' => some '/'
  | 'b' => some '\x08'
  | 'f' => some '\x0c'
  | 'n' => some '\n'
  | 'r' => some '\r'
  | 't' => some '\t'
  | _ => none

def isLeading (n : Nat) : Bool := 0xD800 ≤ n && n ≤ 0xDBFF

def isTrailing (n : Nat) : Bool := 0xDC00 ≤ n && n ≤ 0xDFFF

def pairChar (hi lo : Nat) : Char := .ofNat (0x10000 + (hi - 0xD800) * 0x400 + (lo - 0xDC00))

def consChar (c : Char) (r : Except Fault (List Char × List Char)) :
    Except Fault (List Char × List Char) :=
  r.map fun (s, rest) => (c :: s, rest)

/-- The characters up to the closing quote, and what follows it. Surrogates come in pairs. -/
def readChars : List Char → Except Fault (List Char × List Char)
  | [] => .error .eof
  | '"' :: cs => .ok ([], cs)
  | '\\' :: 'u' :: a :: b :: c :: d :: cs =>
    match codeUnit? a b c d with
    | none => .error .malformed
    | some n =>
      if isTrailing n then .error .malformed
      else if isLeading n then
        match cs with
        | [] => .error .eof
        | '\\' :: [] => .error .eof
        | '\\' :: 'u' :: a :: b :: c :: d :: cs =>
          match codeUnit? a b c d with
          | none => .error .malformed
          | some m => if isTrailing m then consChar (pairChar n m) (readChars cs) else .error .malformed
        | '\\' :: 'u' :: cs => .error (shortCodeUnit cs)
        | _ => .error .malformed
      else consChar (.ofNat n) (readChars cs)
  | '\\' :: 'u' :: cs => .error (shortCodeUnit cs)
  | '\\' :: [] => .error .eof
  | '\\' :: c :: cs =>
    match unescape? c with
    | some c => consChar c (readChars cs)
    | none => .error .malformed
  | c :: cs => if c.toNat < 0x20 then .error .malformed else consChar c (readChars cs)

/-- What follows the closing quote of a string whose content does not matter: surrogates may stand
alone. -/
def skipChars : List Char → Except Fault (List Char)
  | [] => .error .eof
  | '"' :: cs => .ok cs
  | '\\' :: 'u' :: a :: b :: c :: d :: cs =>
    if (codeUnit? a b c d).isSome then skipChars cs else .error .malformed
  | '\\' :: 'u' :: cs => .error (shortCodeUnit cs)
  | '\\' :: [] => .error .eof
  | '\\' :: c :: cs => if (unescape? c).isSome then skipChars cs else .error .malformed
  | c :: cs => if c.toNat < 0x20 then .error .malformed else skipChars cs

def readQuoted (cs : List Char) : Except Fault (String × List Char) :=
  (readChars cs).map fun (s, rest) => (.ofList s, rest)

end Achievements.Json
