import Achievements.Settings.Value

namespace Achievements.Toml

/-- How a table came about, which decides what may still be added to it: on the way to a table with
a header, on the way of a dotted key, or by its own header. -/
inductive Origin
  | implied
  | dotted
  | header
deriving DecidableEq

inductive Node
  | leaf (v : Setting)
  | table (origin : Origin) (members : List (String × Node))
  | tables (items : List (List (String × Node)))

abbrev Nodes : Type := List (String × Node)

def putNode (key : String) (n : Node) : Nodes → Nodes
  | [] => [(key, n)]
  | (k, m) :: ns => if k = key then (key, n) :: ns else (k, m) :: putNode key n ns

def atLast (f : Nodes → Option Nodes) (items : List Nodes) : Option (List Nodes) :=
  (f (items.getLast?.getD [])).map fun ms => items.dropLast ++ [ms]

/-- Changes the table in which the last name of a path stands. Tables on the way are made as
needed. -/
def within (f : String → Nodes → Option Nodes) : List String → Nodes → Option Nodes
  | [], _ => none
  | [key], ns => f key ns
  | key :: path, ns =>
    match ns.lookup key with
    | none => (within f path []).map fun ms => putNode key (.table .implied ms) ns
    | some (.table o ms) => (within f path ms).map fun ms => putNode key (.table o ms) ns
    | some (.tables items) =>
      (atLast (within f path) items).map fun items => putNode key (.tables items) ns
    | some (.leaf _) => none

def openTable (key : String) (ns : Nodes) : Option Nodes :=
  match ns.lookup key with
  | none => some (putNode key (.table .header []) ns)
  | some (.table .implied ms) => some (putNode key (.table .header ms) ns)
  | some _ => none

def openItem (key : String) (ns : Nodes) : Option Nodes :=
  match ns.lookup key with
  | none => some (putNode key (.tables [[]]) ns)
  | some (.tables items) => some (putNode key (.tables (items ++ [[]])) ns)
  | some _ => none

/-- Assigns to a key of a table. With names in front of it, the table must have come about by such
a key too. -/
def assign (v : Setting) (here : Bool) : List String → Nodes → Option Nodes
  | [], _ => none
  | [key], ns =>
    if !here ∨ (ns.lookup key).isSome then none else some (putNode key (.leaf v) ns)
  | key :: path, ns =>
    match ns.lookup key with
    | none => (assign v true path []).map fun ms => putNode key (.table .dotted ms) ns
    | some (.table o ms) =>
      if o = .header then none
      else (assign v (o = .dotted) path ms).map fun ms => putNode key (.table o ms) ns
    | some (.tables items) =>
      (atLast (assign v false path) items).map fun items => putNode key (.tables items) ns
    | some (.leaf _) => none

def assignIn (v : Setting) (key : List String) : List String → Nodes → Option Nodes
  | [], ns => assign v true key ns
  | path, ns =>
    within (fun name ns =>
      match ns.lookup name with
      | some (.table o ms) => (assign v true key ms).map fun ms => putNode name (.table o ms) ns
      | some (.tables items) =>
        (atLast (assign v true key) items).map fun items => putNode name (.tables items) ns
      | _ => none) path ns

mutual

def settingOf : Node → Setting
  | .leaf v => v
  | .table _ ns => .table (settingsOf ns)
  | .tables items => .list (itemsOf items)
termination_by structural n => n

def settingsOf : List (String × Node) → Setting.Members
  | [] => []
  | m :: ns => memberOf m :: settingsOf ns
termination_by structural ns => ns

def memberOf : String × Node → String × Setting
  | (key, n) => (key, settingOf n)
termination_by structural m => m

def itemsOf : List (List (String × Node)) → List Setting
  | [] => []
  | ns :: items => .table (settingsOf ns) :: itemsOf items
termination_by structural items => items

end

end Achievements.Toml
