import Achievements.Settings.Value

/-!
Keys that lead into settings. A key such as `repository.source` or `repository[0]` is a path of
names and places; a key that is no such path is a name as it stands.
-/
namespace Achievements.Setting

inductive Step
  | name (s : String)
  /-- A place in a list. A negative one counts from the end. -/
  | index (i : Int)
deriving DecidableEq

def isPathChar (c : Char) : Bool := c.isAlphanum || c = '_' || c = '-' || c = ' '

def isSpaceOrTab (c : Char) : Bool := c = ' ' || c = '\t'

def place? (cs : List Char) : Option Int :=
  let cs := ((cs.dropWhile isSpaceOrTab).reverse.dropWhile isSpaceOrTab).reverse
  if cs.head? = some '+' then none
  else ((Decimal.integer? cs).bind int64?).map Int64.toInt

def steps (cs : List Char) : Option (List Step) :=
  match cs with
  | [] => some []
  | '.' :: cs =>
    have := (List.dropWhile_suffix isPathChar (l := cs)).length_le
    if cs.takeWhile isPathChar = [] then none
    else
      (steps (cs.dropWhile isPathChar)).map (.name (.ofList (cs.takeWhile isPathChar)) :: ·)
  | '[' :: cs =>
    have := (List.dropWhile_suffix (· ≠ ']') (l := cs)).length_le
    match h : cs.dropWhile (· ≠ ']') with
    | [] => none
    | _ :: rest =>
      have : rest.length < cs.length + 1 := by simp_all; omega
      (place? (cs.takeWhile (· ≠ ']'))).bind fun i => (steps rest).map (.index i :: ·)
  | _ => none
termination_by cs.length

def path? (key : String) : Option (List Step) :=
  match key.toList.takeWhile isPathChar with
  | [] => none
  | name => (steps (key.toList.dropWhile isPathChar)).map (.name (.ofList name) :: ·)

def items : Option Setting → List Setting
  | some (list vs) => vs
  | _ => []

/-- Changes a place of a list, which grows to have it: with nothing at the end, or in front of the
first item for a place before it. -/
def setPlace (vs : List Setting) (i : Int) (f : Option Setting → Setting) : List Setting :=
  let i := if i < 0 then vs.length + i else i
  if i < 0 then f none :: (List.replicate (i.natAbs - 1) nil ++ vs)
  else
    let n := i.toNat
    vs.take n ++ List.replicate (n - vs.length) nil ++ [f vs[n]?] ++ vs.drop (n + 1)

/-- Lays a value over what stands at the end of a path. What is on the way and neither a table nor
a list, as the step needs it, gives place to one. -/
def setAt (base : Option Setting) (v : Setting) : List Step → Setting
  | [] => overlay base v
  | .name n :: path =>
    let ms := members base
    table (put (lower n) (setAt (ms.lookup (lower n)) v path) ms)
  | .index i :: path => list (setPlace (items base) i fun old => setAt old v path)

/-- Sets a key, which is a path if it can be read as one. -/
def set (base : Members) (key : String) (v : Setting) : Members :=
  members (some (setAt (some (table base)) v ((path? key).getD [.name key])))

end Achievements.Setting
