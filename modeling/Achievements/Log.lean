import Achievements.Expression
import Achievements.FileTree
import Achievements.Row
import Achievements.Settings.Basic

namespace Achievements

inductive Level
  | error
  | warn
  | info
  | debug
  | trace
deriving DecidableEq

def Level.rank : Level → Nat
  | error => 1
  | warn => 2
  | info => 3
  | debug => 4
  | trace => 5

def Level.name : Level → String
  | error => "ERROR"
  | warn => "WARN"
  | info => "INFO"
  | debug => "DEBUG"
  | trace => "TRACE"

inductive Event
  | configured (s : Settings)
  | usingFiles (input output : String)
  | usingMemory
  | dryRun
  | loadedFrom (count : Nat) (path : Path)
  | loaded (count : Nat)
  /-- A rule's test held of a clause; the clause was read or not. -/
  | attempt (body : List Char) (form : Form) (read : Bool)
  | dropping (clause : String)
  | lossy (row : LegacyRow) (dropped : List String)
  | migrated (row : LegacyRow)
  | wrote (count : Nat) (path : Path)
  | complete
  | totals (rows conditions dropped : Nat)
  | lossyRows (ids : List Int32)

namespace Event

def level : Event → Level
  | loadedFrom .. | dropping _ | wrote .. => .debug
  | attempt .. => .trace
  | lossy .. => .warn
  | _ => .info

def target : Event → String
  | usingFiles .. | usingMemory => "medal_migrate::backend"
  | loadedFrom .. | wrote .. => "medal_repository::file_system"
  | loaded _ | lossy .. | migrated _ => "medal_migrate::migrator"
  | attempt .. => "medal_parser::classifier"
  | dropping _ => "medal_parser::translator"
  | configured _ | dryRun | complete | totals .. | lossyRows _ => "medal_migrate"

def natText (n : Nat) : String := .ofList (Nat.toDigits 10 n)

def idText (n : Int32) : String := .ofList (integerText n.toInt)

def boolText (b : Bool) : String := if b then "true" else "false"

def optionText : Option String → String
  | some s => "Some(" ++ Text.quoted s ++ ")"
  | none => "None"

def recordText (title : String) (fields : List (String × String)) : String :=
  title ++ " \x7b " ++ ", ".intercalate (fields.map fun (k, v) => k ++ ": " ++ v) ++ " \x7d"

def listText (items : List String) : String := "[" ++ ", ".intercalate items ++ "]"

def storeText (c : StoreConfig) : String :=
  recordText "RepositoryConfig" [("source", c.source.name), ("input_path", optionText c.inputPath),
    ("output_path", optionText c.outputPath), ("database_url", optionText c.databaseUrl)]

def settingsText (s : Settings) : String :=
  recordText "MigrateConfig" [("repository", storeText s.store),
    ("log_level", Text.quoted s.logLevel), ("dry_run", boolText s.dryRun)]

def message : Event → String
  | configured s => "Loaded configuration: " ++ settingsText s
  | usingFiles i o => "Using file system repository: " ++ i ++ " -> " ++ o
  | usingMemory => "Using empty in-memory repository"
  | dryRun => "Dry run: migrated rows will not be written"
  | loadedFrom n p => "loaded " ++ natText n ++ " legacy achievements from " ++ p.text
  | loaded n => "Loaded " ++ natText n ++ " legacy achievements"
  | attempt body form true => "clause '" ++ .ofList body ++ "' recognized as " ++ form.name
  | attempt body form false =>
    "clause '" ++ .ofList body ++ "' looked like " ++ form.name ++ " but did not parse"
  | dropping c => "dropping unrecognized clause '" ++ c ++ "'"
  | lossy row _ => "unrecognized clauses dropped from condition '" ++ row.cond ++ "'"
  | migrated row => "migrated achievement " ++ idText row.id ++ " (" ++ row.name ++ ")"
  | wrote n p => "wrote " ++ natText n ++ " achievements to " ++ p.text
  | complete => "migration complete"
  | totals r c d =>
    "  " ++ natText r ++ " achievements, " ++ natText c ++ " conditions, " ++ natText d ++
      " dropped clauses"
  | lossyRows ids => "  achievements with dropped clauses: " ++ listText (ids.map idText)

def details : Event → List (String × String)
  | lossy row dropped => [("id", idText row.id), ("dropped", listText (dropped.map Text.quoted))]
  | _ => []

def fields : Event → List String
  | attempt .. | dropping _ =>
    ["message", "log.target", "log.module_path", "log.file", "log.line"]
  | e => "message" :: e.details.map Prod.fst

/-- Characters that could steer a terminal are spelled out. -/
def harmless (c : Char) : List Char :=
  let n := c.toNat
  if n = 0x1b ∨ n = 0x07 ∨ n = 0x08 ∨ n = 0x0c ∨ n = 0x7f then
    ['\\', 'x', Nat.digitChar (n / 16), Nat.digitChar (n % 16)]
  else if 0x80 ≤ n ∧ n ≤ 0x9f then ['\\', 'u', '\x7b'] ++ Text.hex n ++ ['\x7d']
  else [c]

def line (e : Event) : String :=
  e.level.name ++ " " ++ e.target ++ ": " ++ .ofList (e.message.toList.flatMap harmless) ++
    .join (e.details.map fun (k, v) => " " ++ k ++ "=" ++ v)

end Event

namespace Expression

def clauseEvents (clause : String) : List Event :=
  let body := Clause.body clause
  (Clause.attempts Clause.rules body).map (fun (form, read) => .attempt body form read) ++
    match judge clause with
    | .unknown c => [.dropping c]
    | _ => []

def events (expression : String) : List Event := (clauses expression).flatMap clauseEvents

end Expression

end Achievements
