import Achievements.Store.Config

namespace Achievements

structure Settings where
  store : StoreConfig
  logLevel : String
  dryRun : Bool
deriving DecidableEq

namespace Settings

def standard : Settings := ⟨.files "achievements.json" "achievements2.json", "info", false⟩

def toJson (s : Settings) : Json :=
  .obj [("repository", s.store.toJson), ("log_level", .str s.logLevel), ("dry_run", .bool s.dryRun)]

structure Draft where
  store : Option StoreConfig := none
  logLevel : Option String := none
  dryRun : Option Bool := none

/-- A store that is configured at all replaces the standard one as a whole. -/
def Draft.finish (d : Draft) : Settings :=
  ⟨d.store.getD standard.store, d.logLevel.getD standard.logLevel, d.dryRun.getD standard.dryRun⟩

def shape : Json.Shape Draft Settings where
  title := "struct MigrateConfig"
  fields := [
    .of "repository" Draft.store (fun d x => { d with store := some x }) StoreConfig.read,
    .of "log_level" Draft.logLevel (fun d x => { d with logLevel := some x }) Json.string,
    .of "dry_run" Draft.dryRun (fun d x => { d with dryRun := some x }) Json.boolean]
  start := {}
  full := false
  finish d := .ok d.finish

def parse (text : String) : Except Json.Fault Settings := Json.readAll shape.read text

end Settings

end Achievements
