import Achievements.Json.Reader

namespace Achievements.Json

structure Field (σ : Type) where
  name : String
  seen : σ → Bool
  read : σ → Reader σ

/-- How a record is read. -/
structure Shape (σ α : Type) where
  title : String
  fields : List (Field σ)
  start : σ
  full : Bool
  finish : σ → Except Mismatch α

def Field.of {σ α : Type} (name : String) (get : σ → Option α) (set : σ → α → σ)
    (reader : Reader α) : Field σ :=
  ⟨name, fun s => (get s).isSome, fun s cs => (reader cs).map fun (x, rest) => (set s x, rest)⟩

def string : Reader String :=
  scalarOf "a string" fun
    | .str s => .ok s
    | v => .error (.type v.found "a string")

def boolean : Reader Bool :=
  scalarOf "a boolean" fun
    | .bool b => .ok b
    | v => .error (.type v.found "a boolean")

def int32 : Reader Int32 :=
  scalarOf "i32" fun
    | .int n =>
      if -0x80000000 ≤ n.val ∧ n.val < 0x80000000 then .ok (.ofInt n.val)
      else .error (.value (.int n.val) "i32")
    | v => .error (.type v.found "i32")

def unit : Reader Unit :=
  scalarOf "unit" fun
    | .null => .ok ()
    | v => .error (.type v.found "unit")

def optionalString : Reader (Option String) := fun cs =>
  match skipBlanks cs with
  | 'n' :: cs => (keyword ['u', 'l', 'l'] cs).map (none, ·)
  | cs => (string cs).map fun (s, rest) => (some s, rest)

def choose {α : Type} (words : List (String × α)) (w : String) : Except Mismatch α :=
  match words.lookup w with
  | some x => .ok x
  | none => .error (.unknown w (words.map Prod.fst))

def identifier {α : Type} (words : List (String × α)) : Reader α :=
  scalarOf "variant identifier" fun
    | .str w => choose words w
    | v => .error (.type v.found "variant identifier")

def soleKey {α : Type} (words : List (String × α)) : Reader α := fun cs =>
  match skipBlanks cs with
  | [] => .error .eof
  | '"' :: cs => identifier words ('"' :: cs)
  | _ => .error .malformed

/-- A word out of a list: as a string, or as the key of an object whose only value is null. -/
def choice {α : Type} (words : List (String × α)) : Reader α := fun cs =>
  match skipBlanks cs with
  | [] => .error .eof
  | '"' :: cs => identifier words ('"' :: cs)
  | '\x7b' :: cs => do
    let (x, cs) ← soleKey words cs
    let cs ← colon cs
    let ((), cs) ← unit cs
    match skipBlanks cs with
    | [] => .error .eof
    | '\x7d' :: rest => return (x, rest)
    | _ => .error .malformed
  | _ => .error .malformed

def list {α : Type} (item : Reader α) : Reader (List α) := fun cs =>
  match skipBlanks cs with
  | '[' :: cs => allItems item true cs
  | cs => scalarOf "a sequence" (fun v => .error (.type v.found "a sequence")) cs

namespace Shape

variable {σ α : Type}

/-- Reads one member from behind its key. A field that comes twice is refused at the key. -/
def member (sh : Shape σ α) (s : σ) (key : String) : Reader σ := fun cs =>
  match sh.fields.find? (·.name = key) with
  | none => do return (s, ← skip (← colon cs))
  | some f =>
    if f.seen s then .error (.mismatch (.duplicate key)) else do f.read s (← colon cs)

def close (cs : List Char) : Except Fault (List Char) :=
  match skipBlanks cs with
  | [] => .error .eof
  | ']' :: rest => .ok rest
  | _ => .error .malformed

def positions (sh : Shape σ α) : List (Field σ) → Nat → σ → Reader σ
  | [], _, s, cs => (close cs).map (s, ·)
  | f :: fs, index, s, cs => do
    match ← nextItem (index = 0) cs with
    | .closed rest =>
      if sh.full then
        .error (.mismatch (.length index
          (sh.title ++ " with " ++ .ofList (Nat.toDigits 10 sh.fields.length) ++ " elements")))
      else return (s, rest)
    | .item cs =>
      let (s, cs) ← f.read s cs
      positions sh fs (index + 1) s cs

def finished (sh : Shape σ α) (s : σ) (rest : List Char) : Except Fault (α × List Char) :=
  match sh.finish s with
  | .ok x => .ok (x, rest)
  | .error m => .error (.mismatch m)

def read (sh : Shape σ α) : Reader α := fun cs =>
  match skipBlanks cs with
  | '\x7b' :: cs => do
    let (s, rest) ← allMembers sh.member sh.start cs
    sh.finished s rest
  | '[' :: cs => do
    let (s, rest) ← sh.positions sh.fields 0 sh.start cs
    sh.finished s rest
  | cs => scalarOf sh.title (fun v => .error (.type v.found sh.title)) cs

end Shape

def required {α : Type} (name : String) : Option α → Except Mismatch α
  | some x => .ok x
  | none => .error (.missing name)

end Achievements.Json
