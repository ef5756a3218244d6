import Achievements.Proofs.Store.History

namespace Achievements

open Sink (Call inserted)

/-- A list that is put together from others: each element belongs to one of them, and what belongs
to one is that list. -/
def IsInterleaving {ι α : Type} [DecidableEq ι] (parts : ι → List α) (whole : List α) : Prop :=
  ∃ owned : List (ι × α), owned.map Prod.snd = whole ∧
    ∀ i, (owned.filter (·.1 = i)).map Prod.snd = parts i

theorem MemoryStore.migrated_of_serves {calls : List Call} {s s' : MemoryStore}
    (h : sink.Serves calls s s') : s'.migrated = s.migrated ++ inserted calls := by
  induction h with
  | nil s => exact (List.append_nil _).symm
  | @cons call calls s s' _ _ ih =>
    rw [ih]
    cases call with
    | insert row => simp [Call.perform, sink]
    | flush => rfl

namespace Migration

variable {σ ι : Type} [DecidableEq ι]

inductive Task
  | start
  | writing (before after : List LegacyRow)
  | finished (legacy : List LegacyRow)
  | failed (e : RunError)

namespace Task

/-- The next thing a run does: it reads its rows, writes one of them or flushes. -/
def step (fetch : Fetch σ) (sink : Sink σ) (s : σ) : Task → Task × σ
  | start =>
    match (fetch s).1 with
    | .error e => (failed (.fetch e), s)
    | .ok legacy => (writing [] legacy, s)
  | writing before (row :: after) =>
    let reply := sink.insert row.migrate s
    match reply.result with
    | .error e => (failed (.insert row.id e), reply.state)
    | .ok () => (writing (before ++ [row]) after, reply.state)
  | writing before [] =>
    let reply := sink.flush s
    match reply.result with
    | .error e => (failed (.flush e), reply.state)
    | .ok () => (finished before, reply.state)
  | finished legacy => (finished legacy, s)
  | failed e => (failed e, s)

def result? : Task → Option (Except RunError Summary)
  | start | writing _ _ => none
  | finished legacy => some (.ok (.recordAll {} legacy))
  | failed e => some (.error e)

def Failed (task : Task) : Prop := ∃ e, task = failed e

def made : Task → List Call
  | start | failed _ => []
  | writing before _ => before.map fun r ↦ .insert r.migrate
  | finished legacy => (legacy.map fun r ↦ .insert r.migrate) ++ [.flush]

def rows? : Task → Option (List LegacyRow)
  | start | failed _ => none
  | writing before after => some (before ++ after)
  | finished legacy => some legacy

variable {fetch : Fetch σ} {sink : Sink σ} {task : Task} {s : σ} {legacy : List LegacyRow}

theorem step_cases (fetch : Fetch σ) (sink : Sink σ) (s : σ) (task : Task) :
    (task.step fetch sink s).1.Failed ∨
    (task.step fetch sink s).2 = s ∧ (task.step fetch sink s).1.made = task.made ∨
    ∃ call : Call, (call.perform sink s).result = .ok () ∧
      (task.step fetch sink s).2 = (call.perform sink s).state ∧
      (task.step fetch sink s).1.made = task.made ++ [call] := by
  cases task with
  | start =>
    rw [step]
    cases (fetch s).1 with
    | error e => exact .inl ⟨_, rfl⟩
    | ok legacy => exact .inr (.inl ⟨rfl, rfl⟩)
  | writing before after =>
    cases after with
    | nil =>
      rw [step]
      cases hflush : (sink.flush s).result with
      | error e => exact .inl ⟨.flush e, by simp⟩
      | ok u => exact .inr (.inr ⟨.flush, hflush, rfl, rfl⟩)
    | cons row after =>
      rw [step]
      cases hinsert : (sink.insert row.migrate s).result with
      | error e => exact .inl ⟨.insert row.id e, by simp⟩
      | ok u => exact .inr (.inr ⟨.insert row.migrate, hinsert, rfl, by simp [made]⟩)
  | finished legacy => exact .inr (.inl ⟨rfl, rfl⟩)
  | failed e => exact .inl ⟨e, rfl⟩

theorem fetched_of_rows?_step (h : (task.step fetch sink s).1.rows? = some legacy) :
    task.rows? = some legacy ∨ task = start ∧ (fetch s).1 = .ok legacy := by
  cases task with
  | start =>
    rw [step] at h
    cases hfetch : (fetch s).1 with
    | error e => simp [hfetch, rows?] at h
    | ok rows =>
      simp only [hfetch, rows?, List.nil_append, Option.some.injEq] at h
      exact .inr ⟨rfl, congrArg Except.ok h⟩
  | writing before after =>
    left
    cases after with
    | nil =>
      rw [step] at h
      cases hflush : (sink.flush s).result with
      | error e => simp [hflush, rows?] at h
      | ok u => simpa [hflush, rows?] using h
    | cons row after =>
      rw [step] at h
      cases hinsert : (sink.insert row.migrate s).result with
      | error e => simp [hinsert, rows?] at h
      | ok u => simpa [hinsert, rows?] using h
  | finished legacy => exact .inl h
  | failed e => exact .inl h

end Task

structure Pool (ι σ : Type) where
  tasks : ι → Task
  shared : σ

namespace Pool

def fresh (s : σ) : Pool ι σ := ⟨fun _ ↦ .start, s⟩

def step (fetch : ι → Fetch σ) (sink : Sink σ) (p : Pool ι σ) (i : ι) : Pool ι σ :=
  let next := (p.tasks i).step (fetch i) sink p.shared
  ⟨Function.update p.tasks i next.1, next.2⟩

def run (fetch : ι → Fetch σ) (sink : Sink σ) (p : Pool ι σ) (turns : List ι) : Pool ι σ :=
  turns.foldl (step fetch sink) p

variable {fetch : ι → Fetch σ} {sink : Sink σ} {s : σ} {p : Pool ι σ} {log : List (ι × Call)}
  {turns : List ι} {i j : ι}

theorem tasks_step_self : (p.step fetch sink i).tasks i =
    ((p.tasks i).step (fetch i) sink p.shared).1 :=
  Function.update_self i _ p.tasks

theorem tasks_step_of_ne (h : j ≠ i) : (p.step fetch sink i).tasks j = p.tasks j :=
  Function.update_of_ne h _ p.tasks

theorem run_concat :
    p.run fetch sink (turns ++ [i]) = (p.run fetch sink turns).step fetch sink i :=
  List.foldl_concat _ p i turns

def Reads (fetch : ι → Fetch σ) (sink : Sink σ) (s : σ) (turns : List ι) (i : ι)
    (legacy : List LegacyRow) : Prop :=
  ∃ before, before ++ [i] <+: turns ∧ ((fresh s).run fetch sink before).tasks i = .start ∧
    (fetch i ((fresh s).run fetch sink before).shared).1 = .ok legacy

/-- The calls of all runs, in the order in which the store was given them, and where their rows come
from. -/
structure Explains (fetch : ι → Fetch σ) (sink : Sink σ) (s : σ) (turns : List ι)
    (log : List (ι × Call)) : Prop where
  served : sink.Serves (log.map Prod.snd) s ((fresh s).run fetch sink turns).shared
  own : ∀ i, (log.filter (·.1 = i)).map Prod.snd = (((fresh s).run fetch sink turns).tasks i).made
  reads : ∀ i legacy, (((fresh s).run fetch sink turns).tasks i).rows? = some legacy →
    Reads fetch sink s turns i legacy

theorem Explains.reads_concat (h : Explains fetch sink s turns log) (i j : ι)
    (legacy : List LegacyRow)
    (hrows : (((fresh s).run fetch sink (turns ++ [i])).tasks j).rows? = some legacy) :
    Reads fetch sink s (turns ++ [i]) j legacy := by
  have hearlier : (((fresh s).run fetch sink turns).tasks j).rows? = some legacy →
      Reads fetch sink s (turns ++ [i]) j legacy := by
    intro hj
    obtain ⟨before, hbefore, hread⟩ := h.reads j legacy hj
    exact ⟨before, hbefore.trans (List.prefix_append turns [i]), hread⟩
  rw [run_concat] at hrows
  by_cases hj : j = i
  · subst hj
    rw [tasks_step_self] at hrows
    rcases Task.fetched_of_rows?_step hrows with hrows | hread
    · exact hearlier hrows
    · exact ⟨turns, List.prefix_rfl, hread⟩
  · rw [tasks_step_of_ne hj] at hrows
    exact hearlier hrows

theorem explains_concat (h : Explains fetch sink s turns log)
    (hi : ¬ (((fresh s).run fetch sink (turns ++ [i])).tasks i).Failed) :
    ∃ log', Explains fetch sink s (turns ++ [i]) log' := by
  rcases Task.step_cases (fetch i) sink ((fresh s).run fetch sink turns).shared
    (((fresh s).run fetch sink turns).tasks i) with
    hfailed | ⟨hstate, hmade⟩ | ⟨call, hresult, hstate, hmade⟩
  · rw [run_concat, tasks_step_self] at hi
    exact absurd hfailed hi
  · refine ⟨log, ?_, ?_, h.reads_concat i⟩
    · rw [run_concat, step, hstate]
      exact h.served
    · intro j
      rw [run_concat]
      by_cases hj : j = i
      · rw [hj, tasks_step_self, hmade, h.own]
      · rw [tasks_step_of_ne hj, h.own]
  · refine ⟨log ++ [(i, call)], ?_, ?_, h.reads_concat i⟩
    · rw [List.map_append, run_concat, step, hstate]
      exact Sink.serves_append.mpr ⟨_, h.served, .cons hresult (.nil _)⟩
    · intro j
      rw [List.filter_append, List.map_append, h.own, run_concat]
      by_cases hj : j = i
      · simp [hj, tasks_step_self, hmade]
      · simp [tasks_step_of_ne hj, Ne.symm hj]

theorem failed_step (h : (p.tasks j).Failed) : ((p.step fetch sink i).tasks j).Failed := by
  by_cases hj : j = i
  · subst hj
    obtain ⟨e, he⟩ := h
    rw [tasks_step_self, he]
    exact ⟨e, rfl⟩
  · rw [tasks_step_of_ne hj]
    exact h

theorem explains_nil (fetch : ι → Fetch σ) (sink : Sink σ) (s : σ) :
    Explains fetch sink s [] [] where
  served := .nil s
  own _ := rfl
  reads _ _ := nofun

theorem exists_explains (h : ∀ i, ¬ (((fresh s).run fetch sink turns).tasks i).Failed) :
    ∃ log, Explains fetch sink s turns log := by
  -- The last turn is taken off: what has failed stays so, so nothing had failed before it.
  induction turns using List.reverseRecOn with
  | nil => exact ⟨[], explains_nil fetch sink s⟩
  | append_singleton turns i ih =>
    have hbefore : ∀ j, ¬ (((fresh s).run fetch sink turns).tasks j).Failed := by
      intro j hj
      apply h j
      rw [run_concat]
      exact failed_step hj
    obtain ⟨log, hlog⟩ := ih hbefore
    exact explains_concat hlog (h i)

def Alone (fetch : ι → Fetch σ) (sink : Sink σ) (i : ι) (s : σ) (task : Task) (s' : σ) : Prop :=
  ∃ n, ((fresh s).run fetch sink (List.replicate n i)).tasks i = task ∧
    ((fresh s).run fetch sink (List.replicate n i)).shared = s'

theorem Alone.step {task : Task} {s' : σ} (h : Alone fetch sink i s task s') :
    Alone fetch sink i s (task.step (fetch i) sink s').1 (task.step (fetch i) sink s').2 := by
  obtain ⟨n, rfl, rfl⟩ := h
  refine ⟨n + 1, ?_⟩
  rw [List.replicate_succ', run_concat]
  exact ⟨tasks_step_self, rfl⟩

theorem Alone.accepts {before after rest : List LegacyRow} {m s' : σ}
    (h : Alone fetch sink i s (.writing before (after ++ rest)) m)
    (haccepts : sink.Accepts (after.map LegacyRow.migrate) m s') :
    Alone fetch sink i s (.writing (before ++ after) rest) s' := by
  induction after generalizing before m with
  | nil =>
    cases haccepts
    rw [List.append_nil]
    exact h
  | cons row after ih =>
    cases haccepts with
    | cons hrow hrest =>
      have hnext := h.step
      simp only [List.cons_append, Task.step, hrow] at hnext
      rw [List.append_cons]
      exact ih hnext hrest

theorem alone_writing {before rest : List LegacyRow} {s' : σ}
    (hfetch : (fetch i s).1 = .ok (before ++ rest))
    (haccepts : sink.Accepts (before.map LegacyRow.migrate) s s') :
    Alone fetch sink i s (.writing before rest) s' := by
  have hstart : Alone fetch sink i s .start s := ⟨0, rfl, rfl⟩
  have hwriting := hstart.step
  simp only [Task.step, hfetch] at hwriting
  exact hwriting.accepts haccepts

theorem alone_run (fetch : ι → Fetch σ) (sink : Sink σ) (i : ι) (s : σ) :
    ∃ task, task.result? = some (Migration.run (fetch i) sink false s).result ∧
      Alone fetch sink i s task (Migration.run (fetch i) sink false s).state := by
  obtain ⟨calls, s', result, hcourse⟩ := exists_course (fetch i) sink s
  obtain ⟨hresult, hstate⟩ := result_and_state_of_course hcourse
  rw [hresult, hstate]
  cases hcourse with
  | @unread e failed =>
    have hstart : Alone fetch sink i s .start s := ⟨0, rfl, rfl⟩
    refine ⟨.failed (.fetch e), rfl, ?_⟩
    simpa [Task.step, failed] using hstart.step
  | @refused before after row m e fetched accepted failed =>
    refine ⟨.failed (.insert row.id e), rfl, ?_⟩
    simpa [Task.step, failed] using (alone_writing fetched accepted).step
  | @unflushed legacy m e fetched accepted failed =>
    rw [← List.append_nil legacy] at fetched
    refine ⟨.failed (.flush e), rfl, ?_⟩
    simpa [Task.step, failed] using (alone_writing fetched accepted).step
  | @done legacy m fetched accepted flushed =>
    rw [← List.append_nil legacy] at fetched
    refine ⟨.finished legacy, rfl, ?_⟩
    simpa [Task.step, flushed] using (alone_writing fetched accepted).step

end Pool

section Log

variable {log : List (ι × Call)}

def ownedRows : List (ι × Call) → List (ι × MigratedRow)
  | [] => []
  | (i, .insert row) :: log => (i, row) :: ownedRows log
  | (_, .flush) :: log => ownedRows log

omit [DecidableEq ι] in
theorem map_snd_ownedRows (log : List (ι × Call)) :
    (ownedRows log).map Prod.snd = inserted (log.map Prod.snd) := by
  fun_induction ownedRows log with
  | case1 => rfl
  | case2 i row log ih => simp [ih]
  | case3 i log ih => simp [ih]

theorem filter_ownedRows (log : List (ι × Call)) (i : ι) :
    (ownedRows log).filter (·.1 = i) = ownedRows (log.filter (·.1 = i)) := by
  fun_induction ownedRows log with
  | case1 => rfl
  | case2 j row log ih => by_cases hj : j = i <;> simp [hj, ih, ownedRows]
  | case3 j log ih => by_cases hj : j = i <;> simp [hj, ih, ownedRows]

theorem isInterleaving_inserted (log : List (ι × Call)) :
    IsInterleaving (fun i ↦ inserted ((log.filter (·.1 = i)).map Prod.snd))
      (inserted (log.map Prod.snd)) := by
  refine ⟨ownedRows log, map_snd_ownedRows log, ?_⟩
  intro i
  rw [filter_ownedRows, map_snd_ownedRows]

theorem exists_last_flush [Nonempty ι] {calls : ι → List Call}
    (h : ∀ i, (log.filter (·.1 = i)).map Prod.snd = calls i ++ [.flush]) :
    ∃ before, log.map Prod.snd = before ++ [.flush] := by
  cases log using List.reverseRecOn with
  | nil =>
    obtain ⟨i⟩ := ‹Nonempty ι›
    simpa using h i
  | append_singleton log last =>
    -- The last call of all is also the last of the run that made it.
    have hlast := h last.1
    simp only [List.filter_append, List.filter_cons, decide_true, if_true, List.filter_nil,
      List.map_append, List.map_cons, List.map_nil] at hlast
    have hflush := (List.append_inj' hlast rfl).2
    refine ⟨log.map Prod.snd, ?_⟩
    rw [List.map_append, ← hflush]
    rfl

end Log

theorem inserted_made (legacy : List LegacyRow) :
    inserted (Task.finished legacy).made = legacy.map LegacyRow.migrate := by
  induction legacy with
  | nil => rfl
  | cons r legacy ih => exact congrArg (r.migrate :: ·) ih

def Pool.Done (p : Pool ι σ) : Prop := ∀ i, ∃ total, (p.tasks i).result? = some (.ok total)

/-- The rows of all runs: each run has read its own when it started, has counted them, and finds
them in order among the others'. -/
def Pool.Merges (fetch : ι → Fetch σ) (sink : Sink σ) (s : σ) (turns : List ι)
    (stored : List MigratedRow) : Prop :=
  ∃ legacy : ι → List LegacyRow,
    (∀ i, Reads fetch sink s turns i (legacy i) ∧
      (((fresh s).run fetch sink turns).tasks i).result? =
        some (.ok (.recordAll {} (legacy i)))) ∧
    IsInterleaving (fun i ↦ (legacy i).map LegacyRow.migrate) stored

theorem Task.eq_finished_of_result? {task : Task} {total : Summary}
    (h : task.result? = some (.ok total)) : ∃ legacy, task = finished legacy := by
  cases task with
  | finished legacy => exact ⟨legacy, rfl⟩
  | start => simp [result?] at h
  | writing before after => simp [result?] at h
  | failed e => simp [result?] at h

theorem Pool.Done.exists_calls {fetch : ι → Fetch σ} {sink : Sink σ} {s : σ} {turns : List ι}
    (h : ((fresh s).run fetch sink turns).Done) :
    ∃ calls, sink.Serves calls s ((fresh s).run fetch sink turns).shared ∧
      Merges fetch sink s turns (inserted calls) ∧
      (Nonempty ι → ∃ before, calls = before ++ [.flush]) := by
  have hfinished (i : ι) :
      ∃ legacy, ((fresh s).run fetch sink turns).tasks i = .finished legacy := by
    obtain ⟨total, htotal⟩ := h i
    exact Task.eq_finished_of_result? htotal
  choose legacy hlegacy using hfinished
  have hunfailed (i : ι) : ¬ (((fresh s).run fetch sink turns).tasks i).Failed := by
    intro hfailed
    obtain ⟨e, he⟩ := hfailed
    cases (hlegacy i).symm.trans he
  obtain ⟨log, hlog⟩ := exists_explains hunfailed
  have hown (i : ι) :
      (log.filter (·.1 = i)).map Prod.snd = (Task.finished (legacy i)).made := by
    rw [hlog.own, hlegacy]
  refine ⟨log.map Prod.snd, hlog.served, ⟨legacy, ?_, ?_⟩, ?_⟩
  · intro i
    refine ⟨hlog.reads i (legacy i) ?_, ?_⟩
    · rw [hlegacy, Task.rows?]
    · rw [hlegacy, Task.result?]
  · have hrows := isInterleaving_inserted log
    simp only [hown, inserted_made] at hrows
    exact hrows
  · intro
    exact exists_last_flush hown

/-- However the calls of some runs come between each other's, once all runs have gone well the rows
that were stored are the rows of the runs put together: every row once, and those of a run in order.
This holds in memory, and of a file, which is written behind the last insertion. A run that nothing
comes between is the migration itself. -/
theorem shared_store_interleaves :
    (∀ (fetch : ι → Fetch (FileStore × FileTree)) (turns : List ι) (store : FileStore)
        (t : FileTree),
      let last := (Pool.fresh (store, t)).run fetch FileStore.sink turns
      last.Done → ∃ stored, Pool.Merges fetch FileStore.sink (store, t) turns stored ∧
        last.shared.1 = { store with pending := store.pending ++ stored } ∧
        (Nonempty ι → last.shared.2.readText store.outputPath =
          .ok (MigratedRow.listText (store.pending ++ stored)))) ∧
    (∀ (fetch : ι → Fetch MemoryStore) (turns : List ι) (store : MemoryStore),
      let last := (Pool.fresh store).run fetch MemoryStore.sink turns
      last.Done → ∃ stored, Pool.Merges fetch MemoryStore.sink store turns stored ∧
        last.shared.migrated = store.migrated ++ stored) ∧
    ∀ {σ : Type} (fetch : ι → Fetch σ) (sink : Sink σ) (i : ι) (s : σ), ∃ n,
      let last := (Pool.fresh s).run fetch sink (List.replicate n i)
      (last.tasks i).result? = some (run (fetch i) sink false s).result ∧
        last.shared = (run (fetch i) sink false s).state := by
  refine ⟨?_, ?_, ?_⟩
  · intro fetch turns store t last h
    obtain ⟨calls, hserves, hmerges, hflush⟩ := h.exists_calls
    refine ⟨inserted calls, hmerges, FileStore.store_of_serves hserves, ?_⟩
    intro hne
    obtain ⟨before, rfl⟩ := hflush hne
    have hrows : inserted (before ++ [.flush]) = inserted before := by
      rw [Sink.inserted_append]
      exact List.append_nil _
    rw [hrows]
    exact FileStore.output_of_serves hserves List.not_mem_nil
  · intro fetch turns store last h
    obtain ⟨calls, hserves, hmerges, -⟩ := h.exists_calls
    exact ⟨inserted calls, hmerges, MemoryStore.migrated_of_serves hserves⟩
  · intro σ fetch sink i s
    obtain ⟨task, hresult, n, htask, hshared⟩ := Pool.alone_run fetch sink i s
    rw [← htask] at hresult
    exact ⟨n, hresult, hshared⟩

theorem shared_store_interleaves_two_runs :
    let first : LegacyRow := ⟨1, "a", "a", "a", "score.mods & 8"⟩
    let second : LegacyRow := ⟨2, "b", "b", "b", "nonsense"⟩
    let third : LegacyRow := ⟨3, "c", "c", "c", ""⟩
    let fetch (i : Bool) : Fetch (FileStore × FileTree) := fun _ ↦
      (.ok (if i then [first, second] else [third]), [])
    let tree : FileTree := ⟨[(["out"], .file "old".toUTF8)]⟩
    let store : FileStore := ⟨["in"], ["out"], []⟩
    let turns := [true, false, true, false, false, true, true]
    let last := (Pool.fresh (store, tree)).run fetch FileStore.sink turns
    let stored := [first.migrate, third.migrate, second.migrate]
    last.Done ∧ Pool.Merges fetch FileStore.sink (store, tree) turns stored ∧
      last.shared.2.readText ["out"] = .ok (MigratedRow.listText stored) := by
  intro first second third fetch tree store turns last stored
  have hwritten (rows : List MigratedRow) (bytes : ByteArray) (entries : List (Path × Entry)) :
      let t : FileTree := ⟨(["out"], .file bytes) :: entries⟩
      FileStore.written ⟨["in"], ["out"], rows⟩ t =
        (⟨(["out"], .file (MigratedRow.listText rows).toUTF8) :: t.entries⟩, .ok ()) := by
    intro t
    have hdirs : t.makeDirs [] = (t, .ok ()) := rfl
    have hfile : t.locate ["out"] = .ok (.file bytes) := rfl
    exact FileStore.written_over hdirs hfile
  have hlast : (∀ i, last.tasks i = .finished (if i then [first, second] else [third])) ∧
      last.shared.1.pending = stored := by
    simp [last, turns, store, tree, stored, fetch, Pool.run, Pool.step, Pool.fresh, Task.step,
      FileStore.sink, hwritten]
  have hdone : last.Done := by
    intro i
    rw [hlast.1 i]
    exact ⟨_, rfl⟩
  obtain ⟨hfiles, -, -⟩ := shared_store_interleaves (ι := Bool)
  obtain ⟨rows, hmerges, hstore, houtput⟩ := hfiles fetch _ _ _ hdone
  have hrows : rows = stored := by
    rw [← hlast.2, hstore]
    rfl
  rw [hrows] at hmerges houtput
  exact ⟨hdone, hmerges, houtput ⟨true⟩⟩

end Migration

end Achievements
