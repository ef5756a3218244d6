import Achievements.Number
import Achievements.Settings.Basic
import Achievements.Text.Pattern

namespace Achievements

inductive Setting
  | nil
  | bool (b : Bool)
  | int (n : Int)
  | float (x : Binary64)
  | str (s : String)
  | list (items : List Setting)
  | table (members : List (String × Setting))

namespace Setting

abbrev Members : Type := List (String × Setting)

/-- Lower case as far as it leads to ASCII: the letters of ASCII and the Kelvin sign. -/
def lowerChar (c : Char) : Char := if c = '\u212A' then 'k' else c.toLower

def lower (s : String) : String := .ofList (s.toList.map lowerChar)

def put (key : String) (v : Setting) : Members → Members
  | [] => [(key, v)]
  | (k, w) :: ms => if k = key then (key, v) :: ms else (k, w) :: put key v ms

def members : Option Setting → Members
  | some (table ms) => ms
  | _ => []

mutual

/-- A table goes over a table key by key, anything else takes the place of what was there. -/
def overlay (base : Option Setting) : Setting → Setting
  | table ms => table (overlayAll (members base) ms)
  | nil => nil
  | bool b => bool b
  | int n => int n
  | float x => float x
  | str s => str s
  | list items => list items
termination_by structural v => v

def overlayAll (base : Members) : List (String × Setting) → Members
  | [] => base
  | m :: ms => overlayAll (overlayOne base m) ms
termination_by structural ms => ms

def overlayOne (base : Members) : String × Setting → Members
  | (key, v) => put (lower key) (overlay (base.lookup (lower key)) v) base
termination_by structural m => m

end

def text? : Setting → Option String
  | str s => some s
  | bool b => some (if b then "true" else "false")
  | int n => some (.ofList (integerText n))
  | float x => some (.ofList x.plain)
  | _ => none

def yes : List String := ["1", "true", "on", "yes"]

def no : List String := ["0", "false", "off", "no"]

def bool? : Setting → Option Bool
  | bool b => some b
  | int n => some (n ≠ 0)
  | float x => some !(x.eq .zero)
  | str s => if lower s ∈ yes then some true else if lower s ∈ no then some false else none
  | _ => none

def source? : Setting → Option Source
  | str s => Source.words.lookup (lower s)
  | table [(s, _)] => Source.words.lookup (lower s)
  | _ => none

def optionalText? : Setting → Option (Option String)
  | nil => some none
  | v => v.text?.map some

/-- A field that may be absent, but not of the wrong kind. -/
def field {α : Type} (v : Option Setting) (read : Setting → Option α) (absent : α) : Option α :=
  match v with
  | none => some absent
  | some v => read v

def storeOf (source input output url : Option Setting) : Option StoreConfig := do
  return ⟨← field source source? .fileSystem, ← field input optionalText? none,
    ← field output optionalText? none, ← field url optionalText? none⟩

def store? : Setting → Option StoreConfig
  | table ms => storeOf (ms.lookup "source") (ms.lookup "input_path") (ms.lookup "output_path")
      (ms.lookup "database_url")
  | list vs => storeOf vs[0]? vs[1]? vs[2]? vs[3]?
  | _ => none

def settings? (ms : Members) : Option Settings := do
  return ⟨← field (ms.lookup "repository") store? Settings.standard.store,
    ← field (ms.lookup "log_level") text? Settings.standard.logLevel,
    ← field (ms.lookup "dry_run") bool? Settings.standard.dryRun⟩

def ofInteger (n : Int) : Setting :=
  match int64? n with
  | some i => int i.toInt
  | none => float (.ofInt n)

mutual

def ofJson : Json → Setting
  | .null => nil
  | .bool b => bool b
  | .int n => ofInteger n.val
  | .float x => float (.fin x)
  | .str s => str s
  | .arr items => list (ofJsonItems items)
  | .obj ms => table (ofJsonMembers ms)
termination_by structural v => v

def ofJsonItems : List Json → List Setting
  | [] => []
  | v :: vs => ofJson v :: ofJsonItems vs
termination_by structural vs => vs

def ofJsonMembers : List (String × Json) → Members
  | [] => []
  | m :: ms => ofJsonMember m :: ofJsonMembers ms
termination_by structural ms => ms

def ofJsonMember : String × Json → String × Setting
  | (key, v) => (key, ofJson v)
termination_by structural m => m

end

end Setting

end Achievements
