import Achievements.Toml.Key
import Achievements.Toml.Moment
import Achievements.Toml.Scalar
import Achievements.Toml.Table

namespace Achievements.Toml

def scalar (cs : List Char) : Option Setting :=
  if cs = "true".toList then some (.bool true)
  else if cs = "false".toList then some (.bool false)
  else
    match integer cs with
    | some n => (int64? n).map fun n => .int n.toInt
    | none => (float cs).map .float

def simple (cs : List Char) : Option (Setting × List Char) :=
  match cs with
  | '"' :: _ | '\'' :: _ => (quoted? cs).map fun (s, rest) => (.str (.ofList s), rest)
  | cs =>
    match moment? cs with
    | some (m, rest) => some (.str (.ofList m), rest)
    | none => do
      let (word, rest) ← Text.run isScalarChar cs
      return (← scalar word, rest)

mutual

/-- A value that nests at most so many levels. The fuel bounds the number of values and items. -/
def value : Nat → Nat → List Char → Option (Setting × List Char)
  | 0, _, _ => none
  | fuel + 1, depth, cs =>
    match cs, depth with
    | '[' :: _, 0 => none
    | '\x7b' :: _, 0 => none
    | '[' :: cs, depth + 1 => (items fuel depth cs).map fun (vs, rest) => (.list vs, rest)
    | '\x7b' :: cs, depth + 1 =>
      match skipSpaces cs with
      | '\x7d' :: rest => some (.table [], rest)
      | cs => (inlineMembers fuel depth [] cs).map fun (ns, rest) => (.table (settingsOf ns), rest)
    | cs, _ => simple cs

def items : Nat → Nat → List Char → Option (List Setting × List Char)
  | 0, _, _ => none
  | fuel + 1, depth, cs =>
    match skipLines cs.length cs with
    | ']' :: rest => some ([], rest)
    | cs => do
      let (v, cs) ← value fuel depth cs
      match skipLines cs.length cs with
      | ']' :: rest => return ([v], rest)
      | ',' :: cs =>
        let (vs, rest) ← items fuel depth cs
        return (v :: vs, rest)
      | _ => none

def inlineMembers : Nat → Nat → Nodes → List Char → Option (Nodes × List Char)
  | 0, _, _, _ => none
  | fuel + 1, depth, ns, cs => do
    let (key, cs) ← key? cs
    match cs with
    | '=' :: cs =>
      let (v, cs) ← value fuel depth (skipSpaces cs)
      let ns ← assign v true key ns
      match skipSpaces cs with
      | '\x7d' :: rest => return (ns, rest)
      | ',' :: cs => inlineMembers fuel depth ns cs
      | _ => none
    | _ => none

end

def assignment? (cs : List Char) : Option (List String × Setting × List Char) := do
  let (key, cs) ← key? cs
  match cs with
  | '=' :: cs =>
    let (v, cs) ← value (2 * cs.length + 2) maxDepth (skipSpaces cs)
    return (key, v, cs)
  | _ => none

/-- Lines from here on. `path` names the table whose header came last. The fuel bounds the number of
lines. -/
def linesFrom : Nat → List String → Nodes → List Char → Option Nodes
  | 0, _, _, _ => none
  | fuel + 1, path, ns, cs =>
    match skipSpaces cs with
    | [] => some ns
    | '[' :: '[' :: cs => do
      let (key, cs) ← key? cs
      match cs with
      | ']' :: ']' :: cs => linesFrom fuel key (← within openItem key ns) (← endLine cs)
      | _ => none
    | '[' :: cs => do
      let (key, cs) ← key? cs
      match cs with
      | ']' :: cs => linesFrom fuel key (← within openTable key ns) (← endLine cs)
      | _ => none
    | cs =>
      match endLine cs with
      | some cs => linesFrom fuel path ns cs
      | none => do
        let (key, v, cs) ← assignment? cs
        linesFrom fuel path (← assignIn v key path ns) (← endLine cs)

def parse (text : String) : Option Setting.Members :=
  let cs := match text.toList with
    | '\uFEFF' :: cs => cs
    | cs => cs
  (linesFrom (cs.length + 1) [] [] cs).map settingsOf

end Achievements.Toml
