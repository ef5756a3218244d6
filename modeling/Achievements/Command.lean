import Achievements.Log.Filter
import Achievements.Migration
import Achievements.Settings.Load

namespace Achievements.Command

inductive Failure
  | settings (e : Settings.LoadError)
  | store (e : OpenError)
  | run (e : RunError)

def Failure.message : Failure → String
  | settings e => e.message
  | store e => e.message
  | run e => e.message

structure Outcome where
  failure : Option Failure
  files : FileTree
  log : List String

def closing (s : Summary) : List Event :=
  [.complete, .totals s.migrated s.conditions s.dropped] ++
    if s.lossy = [] then [] else [.lossyRows s.lossy]

def withSettings (t : FileTree) (base : Path) (s : Settings) : Option Failure × FileTree × List Event :=
  match Store.open? s.store t base with
  | (.error e, log) => (some (.store e), t, .configured s :: log)
  | (.ok store, log) =>
    let reply := Migration.run Store.fetch Store.sink s.dryRun (store, t)
    let before := .configured s :: log ++ (if s.dryRun then [.dryRun] else []) ++ reply.log
    match reply.result with
    | .error e => (some (.run e), reply.state.2, before)
    | .ok summary => (none, reply.state.2, before ++ closing summary)

def execute (t : FileTree) (base : Path) (env : Environment) : Outcome :=
  match Settings.load t base env with
  | .error e => ⟨some (.settings e), t, []⟩
  | .ok s =>
    let (failure, files, events) := withSettings t base s
    let filter := Filter.inForce (Settings.fullEnvironment t base env) s.logLevel
    ⟨failure, files, filter.lines events⟩

end Achievements.Command
