import Achievements.FileTree
import Achievements.Settings.Variables
import Achievements.Toml.Reader

namespace Achievements.Settings

inductive LoadError
  | load
  | decode
deriving DecidableEq

def LoadError.message : LoadError → String
  | load => "Failed to load config"
  | decode => "Failed to deserialize config"

inductive Format
  | toml
  | json
  | yaml
  | ini
  | ron
  | json5
deriving DecidableEq

def Format.all : List Format := [toml, json, yaml, ini, ron, json5]

def Format.extensions : Format → List String
  | toml => ["toml"]
  | json => ["json"]
  | yaml => ["yaml", "yml"]
  | ini => ["ini"]
  | ron => ["ron"]
  | json5 => ["json5"]

def hasExtension (name extension : String) : Bool :=
  ('.' :: extension.toList).isSuffixOf name.toList &&
    !(['/', '.'] ++ extension.toList).isSuffixOf name.toList && name ≠ "." ++ extension

def formatOf (name : String) : Option Format :=
  Format.all.find? fun f => f.extensions.any (hasExtension name)

/-- What is left open: how the texts of a format are read, and in which order formats are tried and
tables are gone through. Tables have no order of their own. -/
structure Loader where
  formats : List Format
  mem_formats : ∀ f, f ∈ formats
  parse : Format → String → Option Setting.Members
  arrange : Environment → Environment
  arrange_perm : ∀ env, (arrange env).Perm env

/-- The path that an extension is added to: a name without the slashes and points at its end, or
the working directory itself if nothing is left. -/
def stem? (base : Path) (name : String) : Option String :=
  let kept := ((Path.pieces name.toList).reverse.dropWhile fun p => p = [] ∨ p = ['.']).reverse
  match kept.getLast? with
  | none => if base = [] ∨ name.toList.head? = some '/' then none else some base.text
  | some ['.', '.'] => none
  | some _ => some (.ofList (['/'].intercalate kept))

/-- The file that a name stands for: the one so called, or else the first that has the name with
the extension of a format. -/
def Loader.find (L : Loader) (t : FileTree) (base : Path) (name : String) :
    Option (String × Format) :=
  if t.isFile base name then (formatOf name).map (name, ·)
  else
    (stem? base name).bind fun stem =>
      L.formats.findSome? fun f =>
        ((f.extensions.map (stem ++ "." ++ ·)).find? (t.isFile base)).map (·, f)

/-- The text of a file. A mark in front is dropped, and what is no character is replaced. -/
def content (bytes : ByteArray) : String :=
  .ofList (Text.decode ((Text.skipMark bytes.data.toList).map UInt8.toNat))

def Loader.source? (L : Loader) (t : FileTree) (base : Path) (name : String) :
    Option (String × Format) := do
  let (full, format) ← L.find t base name
  let path ← (t.resolve base full).toOption
  return (content (← (t.readBytes path).toOption), format)

def Loader.build (L : Loader) (file : Setting.Members) (env : Environment) :
    Except LoadError Settings :=
  let base := file.foldl (fun ms (key, v) => Setting.set ms key v) []
  match Setting.settings? ((L.arrange env.counting).apply base) with
  | some s => .ok s
  | none => .error .decode

def Loader.loadFrom (L : Loader) (t : FileTree) (base : Path) (env : Environment) (name : String) :
    Except LoadError Settings :=
  match L.source? t base name with
  | none => .error .load
  | some (text, format) =>
    match L.parse format text with
    | none => .error .load
    | some file => L.build file env

/-- The file of variables in the working directory or the nearest directory above it. -/
def variablesFile (t : FileTree) : Nat → Path → Option Path
  | fuel, base =>
    match t.entry? (base ++ [".env"]), fuel with
    | some (.file _), _ => some (base ++ [".env"])
    | _, 0 => none
    | _, fuel + 1 => variablesFile t fuel base.dropLast

def fullEnvironment (t : FileTree) (base : Path) (env : Environment) : Environment :=
  match (variablesFile t base.length base).bind fun p => (t.readBytes p).toOption with
  | some bytes => Variables.addFile env bytes
  | none => env

def Loader.load (L : Loader) (t : FileTree) (base : Path) (env : Environment) :
    Except LoadError Settings :=
  let env := fullEnvironment t base env
  match L.source? t base "config/migrate" with
  | none => L.build [] env
  | some (text, format) =>
    match L.parse format text with
    | none => .error .load
    | some file => L.build file env

/-- Goes through everything as it stands. Texts of TOML and JSON alone are read. -/
def Loader.inOrder : Loader where
  formats := Format.all
  mem_formats f := by cases f <;> decide
  parse
    | .toml, text => Toml.parse text
    | .json, text =>
      match Json.parse text with
      | .ok (.obj ms) => some (Setting.ofJsonMembers ms)
      | _ => none
    | _, _ => none
  arrange env := env
  arrange_perm _ := .refl _

def loadFrom (t : FileTree) (base : Path) (env : Environment) (name : String) :
    Except LoadError Settings := Loader.inOrder.loadFrom t base env name

def load (t : FileTree) (base : Path) (env : Environment) : Except LoadError Settings :=
  Loader.inOrder.load t base env

end Achievements.Settings
