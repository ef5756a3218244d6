import Achievements.Settings.KeyPath

namespace Achievements

abbrev Environment : Type := List (String × String)

namespace Environment

def marker : List Char := "medal__".toList

/-- Two underscores separate levels. -/
def levels : List Char → List Char
  | '_' :: '_' :: cs => '.' :: levels cs
  | c :: cs => c :: levels cs
  | [] => []

def key? (name : String) : Option String :=
  let cs := name.toList.map Setting.lowerChar
  if marker.isPrefixOf cs then some (.ofList (levels (cs.drop marker.length))) else none

/-- A value is a truth value, an integer or a decimal if it reads as one, else a text. -/
def guess (value : String) : Setting :=
  match Setting.lower value with
  | "true" => .bool true
  | "false" => .bool false
  | _ =>
    match (Decimal.integer? value.toList).bind int64? with
    | some n => .int n.toInt
    | none =>
      match Decimal.float? value.toList with
      | some x => .float x
      | none => .str value

/-- The variables that set a key. The case of a name does not matter; of several the last counts. -/
def counting : Environment → Environment
  | [] => []
  | x :: env =>
    match key? x.1 with
    | none => counting env
    | some key =>
      if env.any (key? ·.1 = some key) then counting env else x :: counting env

def apply (env : Environment) (base : Setting.Members) : Setting.Members :=
  env.foldl (fun ms (name, value) =>
    match key? name with
    | some key => Setting.set ms key (guess value)
    | none => ms) base

def addMissing (env : Environment) (name value : String) : Environment :=
  if (env.lookup name).isSome then env else env ++ [(name, value)]

end Environment

end Achievements
