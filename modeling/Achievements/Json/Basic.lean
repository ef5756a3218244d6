import Achievements.Binary64.Basic

namespace Achievements

structure Json.Integer where
  val : Int
  lower : -0x8000000000000000 ≤ val
  upper : val < 0x10000000000000000
deriving DecidableEq

inductive Json
  | null
  | bool (b : Bool)
  | int (n : Json.Integer)
  | float (x : Finite64)
  | str (s : String)
  | arr (items : List Json)
  | obj (members : List (String × Json))

namespace Json

instance : Inhabited Json := ⟨null⟩

namespace Integer

def ofInt? (n : Int) : Option Integer :=
  if h : -0x8000000000000000 ≤ n ∧ n < 0x10000000000000000 then some ⟨n, h.1, h.2⟩ else none

def ofInt64 (n : Int64) : Integer :=
  ⟨n.toInt, n.le_toInt, Int.lt_of_lt_of_le n.toInt_lt (by decide)⟩

def ofInt32 (n : Int32) : Integer :=
  ⟨n.toInt, Int.le_trans (by decide) n.le_toInt, Int.lt_of_lt_of_le n.toInt_lt (by decide)⟩

def ofUInt32 (n : UInt32) : Integer :=
  ⟨n.toNat, by omega, by have := n.toNat_lt; omega⟩

end Integer

/-- A double as a value: those without a decimal text become null. -/
def ofBinary64 : Binary64 → Json
  | .fin x => float x
  | _ => null

def insertMember (key : String) (value : Json) : List (String × Json) → List (String × Json)
  | [] => [(key, value)]
  | (k, v) :: ms =>
    if key < k then (key, value) :: (k, v) :: ms
    else if key = k then (key, value) :: ms
    else (k, v) :: insertMember key value ms

mutual

/-- Objects with increasing keys all the way down; of members with one key the last stays. -/
def sorted : Json → Json
  | arr items => arr (sortedItems items)
  | obj members => obj ((sortedMembers members).foldl (fun ms m => insertMember m.1 m.2 ms) [])
  | null => null
  | bool b => bool b
  | int n => int n
  | float x => float x
  | str s => str s
termination_by structural v => v

def sortedItems : List Json → List Json
  | [] => []
  | v :: vs => sorted v :: sortedItems vs
termination_by structural vs => vs

def sortedMembers : List (String × Json) → List (String × Json)
  | [] => []
  | m :: ms => sortedMember m :: sortedMembers ms
termination_by structural ms => ms

def sortedMember : String × Json → String × Json
  | (key, v) => (key, sorted v)
termination_by structural m => m

end

/-- The value of a key, the last one if there are several. -/
def get? (key : String) : Json → Option Json
  | obj members => members.reverse.lookup key
  | _ => none

def str? : Json → Option String
  | str s => some s
  | _ => none

end Json

end Achievements
