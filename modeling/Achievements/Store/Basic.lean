import Achievements.Log

namespace Achievements

inductive OpenError
  | invalidPath (path : String)
  | config (e : ConfigError)

def OpenError.message : OpenError → String
  | invalidPath p => "Invalid path: " ++ p
  | config e => "Configuration error: " ++ e.message

inductive StoreError
  | file (e : FileError)
  | json (f : Json.Fault)
  | opening (e : OpenError)
  | other (reason : String)

structure Reply (σ : Type) (ε α : Type) where
  result : Except ε α
  state : σ
  log : List Event := []

/-- A machine that accepts migrated rows. -/
structure Sink (σ : Type) where
  insert : MigratedRow → σ → Reply σ StoreError Unit
  flush : σ → Reply σ StoreError Unit

abbrev Fetch (σ : Type) : Type := σ → Except StoreError (List LegacyRow) × List Event

structure MemoryStore where
  legacy : List LegacyRow := []
  migrated : List MigratedRow := []

namespace MemoryStore

def fetch : Fetch MemoryStore := fun s => (.ok s.legacy, [])

def sink : Sink MemoryStore where
  insert row s := ⟨.ok (), { s with migrated := s.migrated ++ [row] }, []⟩
  flush s := ⟨.ok (), s, []⟩

end MemoryStore

structure FileStore where
  inputPath : Path
  outputPath : Path
  /-- All rows inserted since the store was opened. -/
  pending : List MigratedRow := []

namespace FileStore

def open? (t : FileTree) (base : Path) (input output : String) : Except OpenError FileStore :=
  if t.isFile base input then .ok ⟨.ofText base input, .ofText base output, []⟩
  else .error (.invalidPath input)

def fetch : Fetch (FileStore × FileTree) := fun (s, t) =>
  match t.readText s.inputPath with
  | .error e => (.error (.file e), [])
  | .ok text =>
    match LegacyRow.parseList text with
    | .error f => (.error (.json f), [])
    | .ok rows => (.ok rows, [.loadedFrom rows.length s.inputPath])

def written (s : FileStore) (t : FileTree) : FileTree × Except FileError Unit :=
  match t.makeDirs s.outputPath.dropLast with
  | (t, .error e) => (t, .error e)
  | (t, .ok ()) =>
    match t.writeText s.outputPath (MigratedRow.listText s.pending) with
    | .ok t' => (t', .ok ())
    | .error e => (t, .error e)

def sink : Sink (FileStore × FileTree) where
  insert row := fun (s, t) => ⟨.ok (), ({ s with pending := s.pending ++ [row] }, t), []⟩
  flush := fun (s, t) =>
    match s.written t with
    | (t', .ok ()) => ⟨.ok (), (s, t'), [.wrote s.pending.length s.outputPath]⟩
    | (t', .error e) => ⟨.error (.file e), (s, t'), []⟩

end FileStore

inductive Store
  | files (s : FileStore)
  | memory (s : MemoryStore)

namespace Store

def open? (c : StoreConfig) (t : FileTree) (base : Path) : Except OpenError Store × List Event :=
  match c.validate with
  | .error e => (.error (.config e), [])
  | .ok () =>
    match c.source with
    | .fileSystem =>
      let input := c.inputPath.getD ""
      let output := c.outputPath.getD ""
      ((FileStore.open? t base input output).map .files, [.usingFiles input output])
    | .database => (.error (.config (.unsupported .database)), [])
    | .memory => (.ok (.memory {}), [.usingMemory])

def fetch : Fetch (Store × FileTree)
  | (files s, t) => FileStore.fetch (s, t)
  | (memory s, _) => MemoryStore.fetch s

def sink : Sink (Store × FileTree) where
  insert row
    | (files s, t) =>
      let r := FileStore.sink.insert row (s, t)
      ⟨r.result, (files r.state.1, r.state.2), r.log⟩
    | (memory s, t) =>
      let r := MemoryStore.sink.insert row s
      ⟨r.result, (memory r.state, t), r.log⟩
  flush
    | (files s, t) =>
      let r := FileStore.sink.flush (s, t)
      ⟨r.result, (files r.state.1, r.state.2), r.log⟩
    | (memory s, t) =>
      let r := MemoryStore.sink.flush s
      ⟨r.result, (memory r.state, t), r.log⟩

end Store

end Achievements
