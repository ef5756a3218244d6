import Achievements.Json.Record
import Achievements.Condition

namespace Achievements

open Json (Mismatch Fault Reader)

def Number.toJson : Number → Json
  | int n => .int (.ofInt64 n)
  | float x => .ofBinary64 x

def Comparison.toJson (op : Comparison) : Json := .str op.token

def Condition.toJson (c : Condition) : Json :=
  .obj (("type", .str c.tag) :: ("stat", .str c.stat) :: match c with
    | compare _ op v => [("op", op.toJson), ("value", v.toJson)]
    | bitEq _ mask equals => [("mask", .int (.ofUInt32 mask)), ("equals", .int (.ofUInt32 equals))]
    | bitNe _ mask => [("mask", .int (.ofUInt32 mask))]
    | range _ lo hi => [("min", lo.toJson), ("max", hi.toJson)])

def Conjunction.toJson (c : Conjunction) : Json :=
  .obj [("type", .str "and"), ("conditions", .arr (c.conditions.map Condition.toJson))]

def Conjunction.text (c : Conjunction) : String := c.toJson.compact

def Conjunction.toValue (c : Conjunction) : Json := c.toJson.sorted

/-- An integer that fits in 64 bits with a sign stays one, any other number is a double. -/
def Number.ofJson : Json → Except Mismatch Number
  | .int n =>
    match int64? n.val with
    | some i => .ok (.int i)
    | none => .ok (.float (.ofInt n.val))
  | .float x => .ok (.float (.fin x))
  | _ => .error .noNumber

def Comparison.words : List (String × Comparison) := [("==", .equal), (">=", .atLeast)]

namespace Condition

inductive Kind
  | compare
  | bitEq
  | bitNe
  | range
deriving DecidableEq

inductive Field
  | stat
  | op
  | value
  | mask
  | equals
  | min
  | max
deriving DecidableEq

def Field.name : Field → String
  | stat => "stat"
  | op => "op"
  | value => "value"
  | mask => "mask"
  | equals => "equals"
  | min => "min"
  | max => "max"

namespace Kind

def words : List (String × Kind) :=
  [("compare", .compare), ("bit_eq", .bitEq), ("bit_ne", .bitNe), ("range", .range)]

def fields : Kind → List Field
  | compare => [.stat, .op, .value]
  | bitEq => [.stat, .mask, .equals]
  | bitNe => [.stat, .mask]
  | range => [.stat, .min, .max]

def title : Kind → String
  | compare => "struct variant Condition::Compare"
  | bitEq => "struct variant Condition::BitEq"
  | bitNe => "struct variant Condition::BitNe"
  | range => "struct variant Condition::Range"

end Kind

structure Parts where
  stat : Option String := none
  op : Option Comparison := none
  value : Option Number := none
  mask : Option UInt32 := none
  equals : Option UInt32 := none
  min : Option Number := none
  max : Option Number := none

def stringOf : Json → Except Mismatch String
  | .str s => .ok s
  | v => .error (.type v.found "a string")

def maskOf : Json → Except Mismatch UInt32
  | .int n =>
    if 0 ≤ n.val ∧ n.val < 0x100000000 then .ok (.ofNat n.val.toNat)
    else .error (.value (.int n.val) "u32")
  | v => .error (.type v.found "u32")

/-- A word, or an object with the word as its only key and nothing in it. -/
def comparisonOf : Json → Except Mismatch Comparison
  | .str w => Json.choose Comparison.words w
  | .obj [(w, v)] => do
    let op ← Json.choose Comparison.words w
    match v with
    | .null => .ok op
    | .obj [] => .ok op
    | v => .error (.type v.found "unit")
  | .obj _ => .error (.value .map "map with a single key")
  | v => .error (.type v.found "string or map")

namespace Parts

def has (p : Parts) : Field → Bool
  | .stat => p.stat.isSome
  | .op => p.op.isSome
  | .value => p.value.isSome
  | .mask => p.mask.isSome
  | .equals => p.equals.isSome
  | .min => p.min.isSome
  | .max => p.max.isSome

def add (p : Parts) (f : Field) (v : Json) : Except Mismatch Parts :=
  match f with
  | .stat => (stringOf v).map fun s => { p with stat := some s }
  | .op => (comparisonOf v).map fun o => { p with op := some o }
  | .value => (Number.ofJson v).map fun n => { p with value := some n }
  | .mask => (maskOf v).map fun m => { p with mask := some m }
  | .equals => (maskOf v).map fun m => { p with equals := some m }
  | .min => (Number.ofJson v).map fun n => { p with min := some n }
  | .max => (Number.ofJson v).map fun n => { p with max := some n }

/-- Adds a member of an object. One that the kind does not have is ignored. -/
def addMember (kind : Kind) (p : Parts) (m : String × Json) : Except Mismatch Parts :=
  match kind.fields.find? (·.name = m.1) with
  | none => .ok p
  | some f => if p.has f then .error (.duplicate f.name) else p.add f m.2

def addItems (kind : Kind) : List Field → Nat → Parts → List Json → Except Mismatch Parts
  | [], _, p, [] => .ok p
  | [], count, _, vs => .error (.length (count + vs.length)
      (.ofList (Nat.toDigits 10 kind.fields.length) ++ " elements in sequence"))
  | _ :: _, count, _, [] => .error (.length count
      (kind.title ++ " with " ++ .ofList (Nat.toDigits 10 kind.fields.length) ++ " elements"))
  | f :: fs, count, p, v :: vs => do addItems kind fs (count + 1) (← p.add f v) vs

def finish (p : Parts) (kind : Kind) : Except Mismatch Condition := do
  let stat ← Json.required "stat" p.stat
  match kind with
  | .compare =>
    return .compare stat (← Json.required "op" p.op) (← Json.required "value" p.value)
  | .bitEq =>
    return .bitEq stat (← Json.required "mask" p.mask) (← Json.required "equals" p.equals)
  | .bitNe => return .bitNe stat (← Json.required "mask" p.mask)
  | .range => return .range stat (← Json.required "min" p.min) (← Json.required "max" p.max)

end Parts

def ofMembers (kind : Kind) (ms : List (String × Json)) : Except Mismatch Condition := do
  (← ms.foldlM (Parts.addMember kind) {}).finish kind

def ofItems (kind : Kind) (vs : List Json) : Except Mismatch Condition := do
  (← Parts.addItems kind kind.fields 0 {} vs).finish kind

def kindOf : Json → Except Mismatch Kind
  | .str w => Json.choose Kind.words w
  | v => .error (.type v.found "variant identifier")

def ofJson : Json → Except Mismatch Condition
  | .obj ms => do
    let kind ← match ms.lookup "type" with
      | some v => kindOf v
      | none => .error (.missing "type")
    ofMembers kind (ms.filter (·.1 ≠ "type"))
  | .arr [] => .error (.missing "type")
  | .arr (v :: vs) => do ofItems (← kindOf v) vs
  | v => .error (.type v.found "internally tagged enum Condition")

/-- Reads a member from behind its key: the type at once, all others as values for later. -/
def member (depth : Nat) (s : Option Kind × List (String × Json)) (key : String) :
    Reader (Option Kind × List (String × Json)) := fun cs =>
  if key = "type" then
    if s.1.isSome then .error (.mismatch (.duplicate "type"))
    else do
      let (kind, rest) ← Json.identifier Kind.words (← Json.colon cs)
      return ((some kind, s.2), rest)
  else do
    let (v, rest) ← Json.value depth (← Json.colon cs)
    return ((s.1, (key, v) :: s.2), rest)

def checked {α : Type} (rest : List Char) : Except Mismatch α → Except Fault (α × List Char)
  | .ok x => .ok (x, rest)
  | .error m => .error (.mismatch m)

/-- A condition straight from a text, members in text order. -/
def read : Reader Condition := fun cs =>
  match Json.skipBlanks cs with
  | '\x7b' :: cs => do
    let ((kind?, ms), rest) ← Json.allMembers (member (Json.maxDepth - 1)) (none, []) cs
    checked rest do ofMembers (← Json.required "type" kind?) ms.reverse
  | '[' :: cs => do
    match ← Json.nextItem true cs with
    | .closed rest => checked rest (.error (.missing "type"))
    | .item cs =>
      let (kind, cs) ← Json.identifier Kind.words cs
      let (vs, rest) ← Json.allItems (Json.value (Json.maxDepth - 1)) false cs
      checked rest (ofItems kind vs)
  | cs => Json.scalarOf "internally tagged enum Condition"
      (fun v => .error (.type v.found "internally tagged enum Condition")) cs

end Condition

def Number.read : Reader Number := fun cs => do
  let (v, rest) ← Json.value Json.maxDepth cs
  Condition.checked rest (Number.ofJson v)

def Comparison.read : Reader Comparison := Json.choice Comparison.words

namespace Conjunction

inductive Refusal
  | noType
  | otherType (word : String)
  | json (f : Fault)

def Refusal.message : Refusal → String
  | noType => "Invalid condition document: missing root 'type' field"
  | otherType w => "Invalid condition document: expected root type 'and', got '" ++ w ++ "'"
  | json f => f.message

def conditionsOf (v : Json) : Except Mismatch (List Condition) :=
  match v.get? "conditions" with
  | none => .error (.missing "conditions")
  | some (.arr vs) => vs.mapM Condition.ofJson
  | some v => .error (.type v.found "a sequence")

def ofValue (v : Json) : Except Refusal Conjunction :=
  match (v.get? "type").bind Json.str? with
  | none => .error .noType
  | some "and" =>
    match conditionsOf v with
    | .ok cs => .ok ⟨cs⟩
    | .error m => .error (.json (.mismatch m))
  | some w => .error (.otherType w)

def parse (text : String) : Except Refusal Conjunction :=
  match Json.parse text with
  | .ok v => ofValue v
  | .error f => .error (.json f)

end Conjunction

end Achievements
