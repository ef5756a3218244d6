import Achievements.Json.Record

namespace Achievements

structure Row (γ : Type) where
  id : Int32
  file : String
  name : String
  desc : String
  cond : γ
deriving DecidableEq

abbrev LegacyRow : Type := Row String

abbrev MigratedRow : Type := Row Json

namespace Row

open Json (Reader Mismatch)

variable {γ : Type}

structure Draft (γ : Type) where
  id : Option Int32 := none
  file : Option String := none
  name : Option String := none
  desc : Option String := none
  cond : Option γ := none

def Draft.finish (d : Draft γ) : Except Mismatch (Row γ) := do
  return ⟨← Json.required "id" d.id, ← Json.required "file" d.file, ← Json.required "name" d.name,
    ← Json.required "desc" d.desc, ← Json.required "cond" d.cond⟩

def shape (title : String) (cond : Reader γ) : Json.Shape (Draft γ) (Row γ) where
  title := title
  fields := [
    .of "id" Draft.id (fun d x => { d with id := some x }) Json.int32,
    .of "file" Draft.file (fun d x => { d with file := some x }) Json.string,
    .of "name" Draft.name (fun d x => { d with name := some x }) Json.string,
    .of "desc" Draft.desc (fun d x => { d with desc := some x }) Json.string,
    .of "cond" Draft.cond (fun d x => { d with cond := some x }) cond]
  start := {}
  full := true
  finish := Draft.finish

def toJson (cond : γ → Json) (r : Row γ) : Json :=
  .obj [("id", .int (.ofInt32 r.id)), ("file", .str r.file), ("name", .str r.name),
    ("desc", .str r.desc), ("cond", cond r.cond)]

end Row

def LegacyRow.read : Json.Reader LegacyRow :=
  (Row.shape "struct LegacyAchievement" Json.string).read

def LegacyRow.toJson (r : LegacyRow) : Json := Row.toJson .str r

/-- The document may nest this deep; its objects are read in sorted form. -/
def MigratedRow.read (depth : Nat) : Json.Reader MigratedRow :=
  (Row.shape "struct Achievement" fun cs =>
    (Json.value depth cs).map fun (v, rest) => (v.sorted, rest)).read

def MigratedRow.toJson (r : MigratedRow) : Json := Row.toJson id r

def LegacyRow.parse (text : String) : Except Json.Fault LegacyRow :=
  Json.readAll LegacyRow.read text

def MigratedRow.parse (text : String) : Except Json.Fault MigratedRow :=
  Json.readAll (MigratedRow.read (Json.maxDepth - 1)) text

def LegacyRow.parseList (text : String) : Except Json.Fault (List LegacyRow) :=
  Json.readAll (Json.list LegacyRow.read) text

def MigratedRow.parseList (text : String) : Except Json.Fault (List MigratedRow) :=
  Json.readAll (Json.list (MigratedRow.read (Json.maxDepth - 2))) text

def MigratedRow.listText (rows : List MigratedRow) : String :=
  (Json.arr (rows.map MigratedRow.toJson)).pretty

end Achievements
