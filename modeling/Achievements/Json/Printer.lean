import Achievements.Decimal.Layout
import Achievements.Json.Basic
import Achievements.Number
import Achievements.Text.Quoted

namespace Achievements.Json

/-- Numbers have an exponent outside of 10⁻⁵ to 10¹⁶, else a point. A tie goes to the even digit. -/
def numberLayout : Decimal.Layout := ⟨fun point => -4 ≤ point && point ≤ 16, true, .toEven⟩

def escapeChar (c : Char) : List Char :=
  match c with
  | '"' => ['\\', '"']
  | '\\' => ['\\', '\\']
  | '\x08' => ['\\', 'b']
  | '\t' => ['\\', 't']
  | '\n' => ['\\', 'n']
  | '\x0c' => ['\\', 'f']
  | '\r' => ['\\', 'r']
  | c =>
    if c.toNat < 0x20 then
      ['\\', 'u', '0', '0', Nat.digitChar (c.toNat / 16), Nat.digitChar (c.toNat % 16)]
    else [c]

def quote (s : String) : List Char := '"' :: s.toList.flatMap escapeChar ++ ['"']

structure Style where
  /-- What stands before an item at some depth and before the bracket that closes the level. -/
  newline : Nat → List Char
  colon : List Char

def Style.compact : Style := ⟨fun _ => [], [':']⟩

def Style.pretty : Style := ⟨fun n => '\n' :: List.replicate (2 * n) ' ', [':', ' ']⟩

def Style.bracket (st : Style) (depth : Nat) (opening closing : Char) :
    List (List Char) → List Char
  | [] => [opening, closing]
  | p :: ps =>
    opening :: st.newline (depth + 1) ++ p ++
      ps.flatMap (fun q => ',' :: st.newline (depth + 1) ++ q) ++ st.newline depth ++ [closing]

mutual

def write (st : Style) (depth : Nat) : Json → List Char
  | null => ['n', 'u', 'l', 'l']
  | bool true => ['t', 'r', 'u', 'e']
  | bool false => ['f', 'a', 'l', 's', 'e']
  | int n => integerText n.val
  | float x => x.write numberLayout
  | str s => quote s
  | arr items => st.bracket depth '[' ']' (writeItems st (depth + 1) items)
  | obj members => st.bracket depth '\x7b' '\x7d' (writeMembers st (depth + 1) members)
termination_by structural v => v

def writeItems (st : Style) (depth : Nat) : List Json → List (List Char)
  | [] => []
  | v :: vs => write st depth v :: writeItems st depth vs
termination_by structural vs => vs

def writeMembers (st : Style) (depth : Nat) : List (String × Json) → List (List Char)
  | [] => []
  | m :: ms => writeMember st depth m :: writeMembers st depth ms
termination_by structural ms => ms

def writeMember (st : Style) (depth : Nat) : String × Json → List Char
  | (key, v) => quote key ++ st.colon ++ write st depth v
termination_by structural m => m

end

def compact (v : Json) : String := .ofList (write .compact 0 v)

def pretty (v : Json) : String := .ofList (write .pretty 0 v)

end Achievements.Json
