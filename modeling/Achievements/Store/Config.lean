import Achievements.Json.Record

namespace Achievements

inductive Source
  | fileSystem
  | database
  | memory
deriving DecidableEq

def Source.name : Source → String
  | fileSystem => "FileSystem"
  | database => "Database"
  | memory => "Memory"

def Source.words : List (String × Source) :=
  [("filesystem", .fileSystem), ("database", .database), ("memory", .memory)]

def Source.word : Source → String
  | fileSystem => "filesystem"
  | database => "database"
  | memory => "memory"

structure StoreConfig where
  source : Source := .fileSystem
  inputPath : Option String := none
  outputPath : Option String := none
  databaseUrl : Option String := none
deriving DecidableEq

inductive ConfigError
  | missing (source : Source) (field : String)
  | unsupported (source : Source)

def ConfigError.message : ConfigError → String
  | missing s f => s.name ++ " source requires " ++ f ++ " to be set"
  | unsupported s => s.name ++ " source is not enabled in this build"

namespace StoreConfig

def files (input output : String) : StoreConfig :=
  { source := .fileSystem, inputPath := some input, outputPath := some output }

def database (url : String) : StoreConfig := { source := .database, databaseUrl := some url }

def memory : StoreConfig := { source := .memory }

def validate (c : StoreConfig) : Except ConfigError Unit :=
  match c.source with
  | .fileSystem =>
    if c.inputPath.isNone then .error (.missing .fileSystem "input_path")
    else if c.outputPath.isNone then .error (.missing .fileSystem "output_path")
    else .ok ()
  | .database => if c.databaseUrl.isNone then .error (.missing .database "database_url") else .ok ()
  | .memory => .ok ()

/-- Fields without a value are left out. -/
def toJson (c : StoreConfig) : Json :=
  .obj (("source", .str c.source.word) ::
    ([("input_path", c.inputPath), ("output_path", c.outputPath),
      ("database_url", c.databaseUrl)].filterMap fun (k, v) => v.map fun s => (k, .str s)))

structure Draft where
  source : Option Source := none
  inputPath : Option (Option String) := none
  outputPath : Option (Option String) := none
  databaseUrl : Option (Option String) := none

def Draft.finish (d : Draft) : StoreConfig :=
  ⟨d.source.getD .fileSystem, d.inputPath.join, d.outputPath.join, d.databaseUrl.join⟩

def shape : Json.Shape Draft StoreConfig where
  title := "struct RepositoryConfig"
  fields := [
    .of "source" Draft.source (fun d x => { d with source := some x }) (Json.choice Source.words),
    .of "input_path" Draft.inputPath (fun d x => { d with inputPath := some x })
      Json.optionalString,
    .of "output_path" Draft.outputPath (fun d x => { d with outputPath := some x })
      Json.optionalString,
    .of "database_url" Draft.databaseUrl (fun d x => { d with databaseUrl := some x })
      Json.optionalString]
  start := {}
  full := false
  finish d := .ok d.finish

def read : Json.Reader StoreConfig := shape.read

def parse (text : String) : Except Json.Fault StoreConfig := Json.readAll read text

end StoreConfig

end Achievements
