import Achievements.Proofs.Migration.Protocol

namespace Achievements.Migration

variable {σ : Type} {fetch : Fetch σ} {sink : Sink σ} {s : σ} {total : Summary}

theorem rows_dry (sink : Sink σ) (legacy : List LegacyRow) (total : Summary) (s : σ) :
    rows sink true legacy total s =
      ⟨.ok (total.recordAll legacy), s, legacy.flatMap fun r ↦ r.events ++ [.migrated r]⟩ := by
  induction legacy generalizing total with
  | nil => rfl
  | cons r legacy ih =>
    rw [rows, if_pos rfl, ih]
    rfl

theorem run_dry (fetch : Fetch σ) (sink : Sink σ) (s : σ) :
    run fetch sink true s =
      match fetch s with
      | (.error e, log) => ⟨.error (.fetch e), s, log⟩
      | (.ok legacy, log) =>
        ⟨.ok (.recordAll {} legacy), s,
          log ++ [.loaded legacy.length] ++ legacy.flatMap fun r ↦ r.events ++ [.migrated r]⟩ := by
  simp only [run, rows_dry]
  rfl

theorem state_run_dry (fetch : Fetch σ) (sink : Sink σ) (s : σ) :
    (run fetch sink true s).state = s := by
  rw [run_dry]
  split <;> rfl

theorem result_run_dry_of_error {e : StoreError} (h : (fetch s).1 = .error e) :
    (run fetch sink true s).result = .error (.fetch e) := by
  rw [run_dry, ← Prod.eta (fetch s), h]

theorem result_run_dry_of_ok {legacy : List LegacyRow} (h : (fetch s).1 = .ok legacy) :
    (run fetch sink true s).result = .ok (.recordAll {} legacy) := by
  rw [run_dry, ← Prod.eta (fetch s), h]

theorem run_eq_ok_iff :
    (run fetch sink false s).result = .ok total ↔
      ∃ legacy s', (fetch s).1 = .ok legacy ∧ sink.Accepts (legacy.map LegacyRow.migrate) s s' ∧
        (sink.flush s').result = .ok () ∧ .recordAll {} legacy = total := by
  constructor
  · intro h
    obtain ⟨calls, s', result, hcourse⟩ := exists_course fetch sink s
    rw [(result_and_state_of_course hcourse).1] at h
    subst h
    cases hcourse with
    | done fetched accepted flushed => exact ⟨_, _, fetched, accepted, flushed, rfl⟩
  · rintro ⟨legacy, s', fetched, accepted, flushed, rfl⟩
    exact (result_and_state_of_course (.done fetched accepted flushed)).1

theorem total_of_run {dry : Bool} (h : (run fetch sink dry s).result = .ok total) :
    ∃ legacy, (fetch s).1 = .ok legacy ∧ .recordAll {} legacy = total := by
  cases dry with
  | false =>
    obtain ⟨legacy, _, fetched, -, -, htotal⟩ := run_eq_ok_iff.mp h
    exact ⟨legacy, fetched, htotal⟩
  | true =>
    cases hfetch : (fetch s).1 with
    | error e =>
      rw [result_run_dry_of_error hfetch] at h
      cases h
    | ok legacy =>
      rw [result_run_dry_of_ok hfetch] at h
      exact ⟨legacy, rfl, Except.ok.inj h⟩

/-- A dry run makes no call, leaves the sink as it was and does not depend on it at all. It fails
exactly where the source fails. Else its totals are those of every run, to any sink, on the same
rows: such a run succeeds exactly where the sink takes all rows and the flush, and then with the
totals foretold. -/
theorem dry_run_foretells (fetch : Fetch σ) (sink : Sink σ) (s : σ) :
    (∀ calls, (run fetch.traced sink.traced true (s, calls)).state = (s, calls) ∧
      (run fetch.traced sink.traced true (s, calls)).untraced = run fetch sink true s) ∧
    (run fetch sink true s).state = s ∧
    (∀ other : Sink σ, run fetch other true s = run fetch sink true s) ∧
    (∀ e, (run fetch sink true s).result = .error e ↔
      ∃ cause, (fetch s).1 = .error cause ∧ .fetch cause = e) ∧
    ∀ legacy, (fetch s).1 = .ok legacy →
      ∃ total, (run fetch sink true s).result = .ok total ∧
        ∀ (τ : Type) (source : Fetch τ) (target : Sink τ) (t : τ), (source t).1 = .ok legacy →
          ∀ total', (run source target false t).result = .ok total' ↔
            total' = total ∧ ∃ t', target.Accepts (legacy.map LegacyRow.migrate) t t' ∧
              (target.flush t').result = .ok () := by
  refine ⟨?_, state_run_dry fetch sink s, ?_, ?_, ?_⟩
  · intro calls
    exact ⟨state_run_dry fetch.traced sink.traced (s, calls), run_traced fetch sink true s calls⟩
  · intro other
    rw [run_dry, run_dry]
  · intro e
    cases hfetch : (fetch s).1 with
    | error cause => simp [result_run_dry_of_error hfetch]
    | ok legacy => simp [result_run_dry_of_ok hfetch]
  · intro legacy hfetch
    refine ⟨_, result_run_dry_of_ok hfetch, ?_⟩
    intro τ source target t hsource total'
    rw [run_eq_ok_iff, hsource]
    constructor
    · rintro ⟨_, t', ⟨⟩, accepted, flushed, htotal⟩
      exact ⟨htotal.symm, t', accepted, flushed⟩
    · rintro ⟨rfl, t', accepted, flushed⟩
      exact ⟨legacy, t', rfl, accepted, flushed, rfl⟩

theorem dry_run_foretells_lossy_row :
    let store : MemoryStore := ⟨[⟨7, "f", "n", "d", "score.mods & 8 and what"⟩], []⟩
    (MemoryStore.fetch store).1 = .ok store.legacy ∧
      (run MemoryStore.fetch MemoryStore.sink true store).result = .ok ⟨1, 1, 1, [7]⟩ ∧
      (run MemoryStore.fetch MemoryStore.sink true store).state = store ∧
      (run MemoryStore.fetch MemoryStore.sink false store).result = .ok ⟨1, 1, 1, [7]⟩ := by
  intro store
  have hfetch : (MemoryStore.fetch store).1 = .ok store.legacy := rfl
  have htotal : Summary.recordAll {} store.legacy = ⟨1, 1, 1, [7]⟩ := by decide +kernel
  have hdry : (run MemoryStore.fetch MemoryStore.sink true store).result = .ok ⟨1, 1, 1, [7]⟩ := by
    rw [result_run_dry_of_ok hfetch, htotal]
  obtain ⟨-, hstate, -, -, htotal⟩ := dry_run_foretells MemoryStore.fetch MemoryStore.sink store
  obtain ⟨total, hresult, hreal⟩ := htotal store.legacy hfetch
  cases hdry.symm.trans hresult
  refine ⟨hfetch, hdry, hstate, ?_⟩
  rw [hreal MemoryStore MemoryStore.fetch MemoryStore.sink store hfetch]
  exact ⟨rfl, _, .cons rfl (.nil _), rfl⟩

end Achievements.Migration
