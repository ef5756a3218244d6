import Achievements.Migration

namespace Achievements

variable {σ : Type}

namespace Sink

inductive Call
  | insert (row : MigratedRow)
  | flush

/-- The same sink, with a list of the calls it has received. -/
def traced (sink : Sink σ) : Sink (σ × List Call) where
  insert row := fun (s, calls) ↦
    let r := sink.insert row s
    ⟨r.result, (r.state, calls ++ [.insert row]), r.log⟩
  flush := fun (s, calls) ↦
    let r := sink.flush s
    ⟨r.result, (r.state, calls ++ [.flush]), r.log⟩

inductive Accepts (sink : Sink σ) : List MigratedRow → σ → σ → Prop
  | nil (s : σ) : Accepts sink [] s s
  | cons {row : MigratedRow} {rows : List MigratedRow} {s s' : σ} :
      (sink.insert row s).result = .ok () → Accepts sink rows (sink.insert row s).state s' →
        Accepts sink (row :: rows) s s'

variable {sink : Sink σ} {rows : List MigratedRow} {s s' : σ}

theorem Accepts.traced (h : sink.Accepts rows s s') (calls : List Call) :
    sink.traced.Accepts rows (s, calls) (s', calls ++ rows.map .insert) := by
  induction h generalizing calls with
  | nil s =>
    rw [List.map_nil, List.append_nil]
    exact .nil _
  | @cons row rows s s' hrow _ ih =>
    have hrest := ih (calls ++ [.insert row])
    rw [List.append_assoc] at hrest
    exact .cons hrow hrest

theorem accepts_or_refuses (sink : Sink σ) (legacy : List LegacyRow) (s : σ) :
    (∃ s', sink.Accepts (legacy.map LegacyRow.migrate) s s') ∨
      ∃ before row after s' e, legacy = before ++ row :: after ∧
        sink.Accepts (before.map LegacyRow.migrate) s s' ∧
        (sink.insert row.migrate s').result = .error e := by
  induction legacy generalizing s with
  | nil => exact .inl ⟨s, .nil s⟩
  | cons r legacy ih =>
    cases hr : (sink.insert r.migrate s).result with
    | error e => exact .inr ⟨[], r, legacy, s, e, rfl, .nil s, hr⟩
    | ok u =>
      rcases ih (sink.insert r.migrate s).state with
        ⟨s', h⟩ | ⟨before, row, after, s', e, rfl, h, he⟩
      · exact .inl ⟨s', .cons hr h⟩
      · exact .inr ⟨r :: before, row, after, s', e, rfl, .cons hr h, he⟩

end Sink

open Sink (Call)

def Fetch.traced (fetch : Fetch σ) : Fetch (σ × List Call) := fun s ↦ fetch s.1

def Reply.untraced {ε α : Type} (r : Reply (σ × List Call) ε α) : Reply σ ε α :=
  ⟨r.result, r.state.1, r.log⟩

def Summary.recordAll (total : Summary) (legacy : List LegacyRow) : Summary :=
  legacy.foldl (fun t r ↦ t.record r.id r.reading) total

namespace Migration

variable {fetch : Fetch σ} {sink : Sink σ} {s s' : σ}

theorem rows_traced (sink : Sink σ) (dry : Bool) (legacy : List LegacyRow) (total : Summary) (s : σ)
    (calls : List Call) :
    (rows sink.traced dry legacy total (s, calls)).untraced = rows sink dry legacy total s := by
  induction legacy generalizing total s calls with
  | nil => rfl
  | cons r legacy ih =>
    cases dry with
    | true =>
      have hrest := ih (total.record r.id r.reading) s calls
      simp only [rows, if_true, ← hrest]
      rfl
    | false =>
      have hrest := ih (total.record r.id r.reading) (sink.insert r.migrate s).state
        (calls ++ [.insert r.migrate])
      simp only [rows, Sink.traced] at hrest ⊢
      cases (sink.insert r.migrate s).result with
      | error e => rfl
      | ok u =>
        simp only [← hrest]
        rfl

theorem run_traced (fetch : Fetch σ) (sink : Sink σ) (dry : Bool) (s : σ) (calls : List Call) :
    (run fetch.traced sink.traced dry (s, calls)).untraced = run fetch sink dry s := by
  have hfinish (r : Reply (σ × List Call) RunError Summary) :
      (finish sink.traced dry r).untraced = finish sink dry r.untraced := by
    obtain ⟨result, ⟨s, calls⟩, log⟩ := r
    cases result with
    | error e => rfl
    | ok total =>
      cases dry with
      | true => rfl
      | false =>
        simp only [finish, Sink.traced, Reply.untraced]
        cases (sink.flush s).result <;> rfl
  simp only [run, Fetch.traced]
  cases fetch s with
  | mk result log =>
    cases result with
    | error e => rfl
    | ok legacy =>
      have hrun := hfinish (rows sink.traced dry legacy {} (s, calls))
      rw [rows_traced] at hrun
      simp only [← hrun]
      rfl

theorem rows_append {before : List LegacyRow}
    (h : sink.Accepts (before.map LegacyRow.migrate) s s') (rest : List LegacyRow)
    (total : Summary) :
    ∃ log, rows sink false (before ++ rest) total s =
      prepend log (rows sink false rest (total.recordAll before) s') := by
  induction before generalizing total s with
  | nil =>
    cases h
    exact ⟨[], rfl⟩
  | cons r before ih =>
    cases h with
    | cons hrow hrest =>
      obtain ⟨log, hlog⟩ := ih hrest (total.record r.id r.reading)
      refine ⟨r.events ++ (sink.insert r.migrate s).log ++ [.migrated r] ++ log, ?_⟩
      simp only [List.cons_append, rows, hrow, hlog, prepend, List.append_assoc, Summary.recordAll,
        List.foldl_cons]
      rfl

theorem rows_accepted {legacy : List LegacyRow}
    (h : sink.Accepts (legacy.map LegacyRow.migrate) s s') (total : Summary) :
    ∃ log, rows sink false legacy total s = ⟨.ok (total.recordAll legacy), s', log⟩ := by
  obtain ⟨log, hlog⟩ := rows_append h [] total
  rw [List.append_nil] at hlog
  exact ⟨log ++ [], hlog⟩

theorem rows_refused {before : List LegacyRow} {row : LegacyRow} {e : StoreError}
    (h : sink.Accepts (before.map LegacyRow.migrate) s s')
    (he : (sink.insert row.migrate s').result = .error e) (after : List LegacyRow)
    (total : Summary) :
    ∃ log, rows sink false (before ++ row :: after) total s =
      ⟨.error (.insert row.id e), (sink.insert row.migrate s').state, log⟩ := by
  obtain ⟨log, hlog⟩ := rows_append h (row :: after) total
  refine ⟨log ++ (row.events ++ (sink.insert row.migrate s').log), ?_⟩
  rw [hlog]
  simp only [rows, he]
  rfl

/-- How a run goes. It ends where the source fails, where the first row is refused, where the flush
fails behind the last row, or well. -/
inductive Course (fetch : Fetch σ) (sink : Sink σ) (s : σ) :
    List Call → σ → Except RunError Summary → Prop
  | unread {e : StoreError} (failed : (fetch s).1 = .error e) :
      Course fetch sink s [] s (.error (.fetch e))
  | refused {before after : List LegacyRow} {row : LegacyRow} {s' : σ} {e : StoreError}
      (fetched : (fetch s).1 = .ok (before ++ row :: after))
      (accepted : sink.Accepts (before.map LegacyRow.migrate) s s')
      (failed : (sink.insert row.migrate s').result = .error e) :
      Course fetch sink s ((before ++ [row]).map fun r ↦ .insert r.migrate)
        (sink.insert row.migrate s').state (.error (.insert row.id e))
  | unflushed {legacy : List LegacyRow} {s' : σ} {e : StoreError}
      (fetched : (fetch s).1 = .ok legacy)
      (accepted : sink.Accepts (legacy.map LegacyRow.migrate) s s')
      (failed : (sink.flush s').result = .error e) :
      Course fetch sink s ((legacy.map fun r ↦ .insert r.migrate) ++ [.flush])
        (sink.flush s').state (.error (.flush e))
  | done {legacy : List LegacyRow} {s' : σ} (fetched : (fetch s).1 = .ok legacy)
      (accepted : sink.Accepts (legacy.map LegacyRow.migrate) s s')
      (flushed : (sink.flush s').result = .ok ()) :
      Course fetch sink s ((legacy.map fun r ↦ .insert r.migrate) ++ [.flush])
        (sink.flush s').state (.ok (.recordAll {} legacy))

theorem exists_course (fetch : Fetch σ) (sink : Sink σ) (s : σ) :
    ∃ calls s' result, Course fetch sink s calls s' result := by
  cases hfetch : (fetch s).1 with
  | error e => exact ⟨_, _, _, .unread hfetch⟩
  | ok legacy =>
    rcases sink.accepts_or_refuses legacy s with ⟨s', h⟩ | ⟨before, row, after, s', e, rfl, h, he⟩
    · cases hflush : (sink.flush s').result with
      | error e => exact ⟨_, _, _, .unflushed hfetch h hflush⟩
      | ok u => exact ⟨_, _, _, .done hfetch h hflush⟩
    · exact ⟨_, _, _, .refused hfetch h he⟩

theorem run_of_course {calls : List Call} {result : Except RunError Summary}
    (h : Course fetch sink s calls s' result) :
    (run fetch.traced sink.traced false (s, [])).result = result ∧
      (run fetch.traced sink.traced false (s, [])).state = (s', calls) := by
  have hfetch {r : Except StoreError (List LegacyRow)} (hr : (fetch s).1 = r) :
      fetch.traced (s, []) = (r, (fetch s).2) := by
    rw [← hr]
    rfl
  cases h with
  | unread failed => simp [run, hfetch failed]
  | @refused before after row s' e fetched accepted failed =>
    have hfailed : (sink.traced.insert row.migrate
        (s', [] ++ (before.map LegacyRow.migrate).map .insert)).result = .error e := failed
    obtain ⟨log, hlog⟩ := rows_refused (accepted.traced []) hfailed after {}
    simp only [run, hfetch fetched, hlog]
    simp [prepend, finish, Sink.traced, Function.comp_def]
  | @unflushed legacy s' e fetched accepted failed =>
    obtain ⟨log, hlog⟩ := rows_accepted (accepted.traced []) {}
    simp only [run, hfetch fetched, hlog]
    simp [prepend, finish, Sink.traced, failed, Function.comp_def]
  | @done legacy s' fetched accepted flushed =>
    obtain ⟨log, hlog⟩ := rows_accepted (accepted.traced []) {}
    simp only [run, hfetch fetched, hlog]
    simp [prepend, finish, Sink.traced, flushed, Function.comp_def]

theorem result_and_state_of_course {calls : List Call} {result : Except RunError Summary}
    (h : Course fetch sink s calls s' result) :
    (run fetch sink false s).result = result ∧ (run fetch sink false s).state = s' := by
  obtain ⟨hresult, hstate⟩ := run_of_course h
  rw [← run_traced fetch sink false s []]
  exact ⟨hresult, congrArg Prod.fst hstate⟩

/-- On every sink a run makes exactly the calls of its course and ends as the course says. What is
inserted for a row is the row itself with the document of its expression, and an error names the row
that was refused. -/
theorem run_iff_course (fetch : Fetch σ) (sink : Sink σ) (s : σ) :
    (∀ calls s' result, ((run fetch.traced sink.traced false (s, [])).result = result ∧
        (run fetch.traced sink.traced false (s, [])).state = (s', calls)) ↔
      Course fetch sink s calls s' result) ∧
    (run fetch.traced sink.traced false (s, [])).untraced = run fetch sink false s ∧
    (∀ r : LegacyRow, r.migrate.id = r.id ∧ r.migrate.file = r.file ∧ r.migrate.name = r.name ∧
      r.migrate.desc = r.desc ∧ r.migrate.cond = (Expression.read r.cond).conjunction.toValue) ∧
    ∀ (id : Int32) (e : StoreError),
      (RunError.insert id e).message = "insert fail for " ++ Event.idText id ∧
      (RunError.insert id e).cause = e ∧
      (RunError.flush e).message = "failed to flush migrated achievements" := by
  refine ⟨fun calls s' result ↦ ⟨?_, run_of_course⟩, run_traced fetch sink false s [], ?_, ?_⟩
  · rintro ⟨rfl, hstate⟩
    obtain ⟨calls', t, result, hcourse⟩ := exists_course fetch sink s
    obtain ⟨hresult, hstate'⟩ := run_of_course hcourse
    rw [hstate', Prod.mk.injEq] at hstate
    obtain ⟨rfl, rfl⟩ := hstate
    rw [hresult]
    exact hcourse
  · intro r
    exact ⟨rfl, rfl, rfl, rfl, rfl⟩
  · intro id e
    exact ⟨rfl, rfl, rfl⟩

end Migration

end Achievements
