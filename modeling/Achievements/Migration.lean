import Achievements.Document
import Achievements.Store.Basic

namespace Achievements

structure Summary where
  migrated : Nat := 0
  conditions : Nat := 0
  dropped : Nat := 0
  lossy : List Int32 := []
deriving DecidableEq

def Summary.record (s : Summary) (id : Int32) (r : Expression.Reading) : Summary where
  migrated := s.migrated + 1
  conditions := s.conditions + r.conjunction.conditions.length
  dropped := s.dropped + r.dropped.length
  lossy := if r.lossless then s.lossy else s.lossy ++ [id]

inductive RunError
  | fetch (cause : StoreError)
  | insert (id : Int32) (cause : StoreError)
  | flush (cause : StoreError)

def RunError.message : RunError → String
  | fetch _ => "failed to fetch legacy achievements"
  | insert id _ => "insert fail for " ++ Event.idText id
  | flush _ => "failed to flush migrated achievements"

def RunError.cause : RunError → StoreError
  | fetch e | insert _ e | flush e => e

namespace LegacyRow

def reading (r : LegacyRow) : Expression.Reading := Expression.read r.cond

def migrate (r : LegacyRow) : MigratedRow :=
  ⟨r.id, r.file, r.name, r.desc, r.reading.conjunction.toValue⟩

def events (r : LegacyRow) : List Event :=
  Expression.events r.cond ++
    if r.reading.lossless then [] else [.lossy r r.reading.dropped]

end LegacyRow

namespace Migration

variable {σ : Type}

def prepend {ε α : Type} (log : List Event) (r : Reply σ ε α) : Reply σ ε α :=
  { r with log := log ++ r.log }

def rows (sink : Sink σ) (dry : Bool) :
    List LegacyRow → Summary → σ → Reply σ RunError Summary
  | [], total, s => ⟨.ok total, s, []⟩
  | r :: rs, total, s =>
    let total' := total.record r.id r.reading
    if dry then prepend (r.events ++ [.migrated r]) (rows sink dry rs total' s)
    else
      let reply := sink.insert r.migrate s
      match reply.result with
      | .error e => ⟨.error (.insert r.id e), reply.state, r.events ++ reply.log⟩
      | .ok () =>
        prepend (r.events ++ reply.log ++ [.migrated r]) (rows sink dry rs total' reply.state)

/-- Ends a run: what was written is flushed, unless the run is dry. -/
def finish (sink : Sink σ) (dry : Bool) (r : Reply σ RunError Summary) : Reply σ RunError Summary :=
  match r.result with
  | .error _ => r
  | .ok total =>
    if dry then r
    else
      let reply := sink.flush r.state
      match reply.result with
      | .error e => ⟨.error (.flush e), reply.state, r.log ++ reply.log⟩
      | .ok () => ⟨.ok total, reply.state, r.log ++ reply.log⟩

def run (fetch : Fetch σ) (sink : Sink σ) (dry : Bool) (s : σ) : Reply σ RunError Summary :=
  match fetch s with
  | (.error e, log) => ⟨.error (.fetch e), s, log⟩
  | (.ok legacy, log) =>
    prepend (log ++ [.loaded legacy.length]) (finish sink dry (rows sink dry legacy {} s))

end Migration

end Achievements
