import Achievements.Text.Pattern
import Achievements.Toml.Quoted

namespace Achievements.Toml

def isNameChar (c : Char) : Bool := c.isAlphanum || c = '_' || c = '-'

def name? (cs : List Char) : Option (String × List Char) :=
  let read := match cs with
    | '"' :: cs => basic cs
    | '\'' :: cs => literal cs
    | cs => Text.run isNameChar cs
  read.map fun (s, rest) => (.ofList s, rest)

def names? : Nat → List Char → Option (List String × List Char)
  | 0, _ => none
  | fuel + 1, cs => do
    let (name, cs) ← name? (skipSpaces cs)
    match skipSpaces cs with
    | '.' :: cs => (names? fuel cs).map fun (names, rest) => (name :: names, rest)
    | cs => some ([name], cs)

def maxDepth : Nat := 79

def key? (cs : List Char) : Option (List String × List Char) := names? maxDepth cs

end Achievements.Toml
