import Achievements.Clause.Pattern

namespace Achievements

inductive Form
  | bitTest
  | bitEquality
  | range
  | lowerBound
  | equality
  | flag
deriving DecidableEq

def Form.name : Form → String
  | bitTest => "bit test"
  | bitEquality => "bit equality"
  | range => "range"
  | lowerBound => "lower bound"
  | equality => "equality"
  | flag => "flag"

namespace Clause

open Text

/-- A cheap test and a reader, which looks at the leftmost place where its pattern matches and at no
other. -/
structure Rule where
  form : Form
  applies : List Char → Bool
  read : List Char → Option Condition

def readBitTest (cs : List Char) : Option Condition := do
  let ((stat, mask), _) ← search bitTestAt cs
  return .bitNe (.ofList stat) (← maskOfLiteral? mask)

def readBitEquality (cs : List Char) : Option Condition := do
  let ((stat, mask, equals), _) ← search bitEqualityAt cs
  return .bitEq (.ofList stat) (← maskOfLiteral? mask) (← maskOfLiteral? equals)

def readRange (cs : List Char) : Option Condition := do
  let ((min, stat, max), _) ← search rangeAt cs
  return .range (.ofList stat) (← Number.ofLiteral? min) (← Number.ofLiteral? max)

def readLowerBound (cs : List Char) : Option Condition := do
  let ((min, stat), _) ← search lowerBoundAt cs
  return .compare (.ofList stat) .atLeast (← Number.ofLiteral? min)

def readEquality (cs : List Char) : Option Condition := do
  let ((stat, value), _) ← search equalityAt cs
  return .compare (.ofList stat) .equal (← Number.ofLiteral? value)

/-- A stat alone means that it is 1. Nothing may follow it. -/
def readFlag (cs : List Char) : Option Condition :=
  match scoreStat cs with
  | some (stat, []) => some (.compare (.ofList stat) .equal (.int 1))
  | _ => none

def bitTest : Rule :=
  ⟨.bitTest, fun cs => '&' ∈ cs && !occurs eqEq cs, readBitTest⟩

def bitEquality : Rule :=
  ⟨.bitEquality, fun cs => '&' ∈ cs && occurs eqEq cs, readBitEquality⟩

def range : Rule :=
  ⟨.range, fun cs => occurs le cs && hasBareLess cs, readRange⟩

def lowerBound : Rule :=
  ⟨.lowerBound, fun cs => occurs le cs && !hasBareLess cs, readLowerBound⟩

def equality : Rule :=
  ⟨.equality, occurs eqEq, readEquality⟩

def flag : Rule :=
  ⟨.flag, fun cs => (expect scoreDot cs).isSome, readFlag⟩

def rules : List Rule := [bitTest, bitEquality, range, lowerBound, equality, flag]

/-- The text on which rules work: trimmed, and without one pair of parentheses. -/
def body (clause : String) : List Char := unwrap (trim clause.toList)

def Rule.outcome? (r : Rule) (body : List Char) : Option (Option Condition) :=
  if r.applies body then some (r.read body) else none

def firstReading (rules : List Rule) (body : List Char) : Option (Form × Condition) :=
  rules.findSome? fun r => (r.outcome? body).join.map (r.form, ·)

def classify (clause : String) : Option (Form × Condition) := firstReading rules (body clause)

/-- The forms whose tests held, up to the one that was read, with whether it was. -/
def attempts : List Rule → List Char → List (Form × Bool)
  | [], _ => []
  | r :: rs, body =>
    match r.outcome? body with
    | none => attempts rs body
    | some none => (r.form, false) :: attempts rs body
    | some (some _) => [(r.form, true)]

end Clause

end Achievements
