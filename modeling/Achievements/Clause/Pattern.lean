import Achievements.Condition
import Achievements.Text.Pattern

namespace Achievements.Clause

open Text

def scoreDot : List Char := ['s', 'c', 'o', 'r', 'e', '.']

def le : List Char := ['<', '=']

def eqEq : List Char := ['=', '=']

def scoreStat : Scanner (List Char) := fun cs => (expect scoreDot cs).bind word

def bitTestAt : Scanner (List Char × List Char) := fun cs => do
  let (stat, cs) ← scoreStat cs
  let cs ← token ['&'] cs
  let (mask, rest) ← digits cs
  return ((stat, mask), rest)

/-- `score.S & M == E`: the stat, the mask and the value. -/
def bitEqualityAt : Scanner (List Char × List Char × List Char) := fun cs => do
  let ((stat, mask), cs) ← bitTestAt cs
  let cs ← token eqEq cs
  let (equals, rest) ← digits cs
  return ((stat, mask, equals), rest)

def lowerBoundAt : Scanner (List Char × List Char) := fun cs => do
  let (min, cs) ← numeral cs
  let cs ← token le cs
  let (stat, rest) ← scoreStat cs
  return ((min, stat), rest)

/-- `A <= score.S < B`: the lower bound, the stat and the upper bound. -/
def rangeAt : Scanner (List Char × List Char × List Char) := fun cs => do
  let ((min, stat), cs) ← lowerBoundAt cs
  let cs ← token ['<'] cs
  let (max, rest) ← numeral cs
  return ((min, stat, max), rest)

/-- `score.S == A` or `S == A`: the stat and the value. -/
def equalityAt : Scanner (List Char × List Char) := fun cs => do
  let (stat, cs) ← word ((expect scoreDot cs).getD cs)
  let cs ← token eqEq cs
  let (value, rest) ← numeral cs
  return ((stat, value), rest)

def withoutLe : List Char → List Char
  | '<' :: '=' :: cs => withoutLe cs
  | c :: cs => c :: withoutLe cs
  | [] => []

def hasBareLess (cs : List Char) : Bool := '<' ∈ withoutLe cs

end Achievements.Clause
