import Achievements.Number

namespace Achievements

inductive Comparison
  | equal
  | atLeast
deriving DecidableEq

inductive Condition
  | compare (stat : String) (op : Comparison) (value : Number)
  | bitEq (stat : String) (mask equals : UInt32)
  /-- Some bit under the mask is set. -/
  | bitNe (stat : String) (mask : UInt32)
  /-- The stat lies in the interval from `min`, included, to `max`, excluded. -/
  | range (stat : String) (min max : Number)
deriving DecidableEq

/-- Conditions that must all hold. Without any, the conjunction holds of every score. -/
structure Conjunction where
  conditions : List Condition
deriving DecidableEq

def Comparison.token : Comparison → String
  | equal => "=="
  | atLeast => ">="

namespace Condition

def stat : Condition → String
  | compare s _ _ | bitEq s _ _ | bitNe s _ | range s _ _ => s

def tag : Condition → String
  | compare .. => "compare"
  | bitEq .. => "bit_eq"
  | bitNe .. => "bit_ne"
  | range .. => "range"

def numbers : Condition → List Number
  | compare _ _ v => [v]
  | range _ lo hi => [lo, hi]
  | _ => []

/-- The same condition up to the value of its numbers. -/
def agrees : Condition → Condition → Bool
  | compare s o v, compare t p w => s = t && o = p && v.agrees w
  | bitEq s m e, bitEq t n f => s = t && m = n && e = f
  | bitNe s m, bitNe t n => s = t && m = n
  | range s a b, range t c d => s = t && a.agrees c && b.agrees d
  | _, _ => false

end Condition

def Conjunction.agrees (a b : Conjunction) : Bool :=
  a.conditions.length = b.conditions.length &&
    (a.conditions.zip b.conditions).all fun (c, d) => c.agrees d

end Achievements
