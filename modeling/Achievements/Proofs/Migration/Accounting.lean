import Achievements.Proofs.Document.Decoding
import Achievements.Proofs.Expression.Blanks
import Achievements.Proofs.Migration.DryRun
import Mathlib.Algebra.BigOperators.Group.List.Basic
import Mathlib.Algebra.GroupWithZero.Nat

namespace Achievements

open Expression (clauses isBlankClause isUnknown)

namespace LegacyRow

theorem conditions_migrate (r : LegacyRow) :
    r.migrate.cond.get? "conditions" =
      some (.arr (r.reading.conjunction.conditions.map (·.toJson.sorted))) := by
  rw [migrate, Conjunction.toValue_eq]
  rfl

theorem length_dropped (r : LegacyRow) :
    r.reading.dropped.length = (clauses r.cond).countP isUnknown := by
  rw [reading, Expression.read_eq]
  exact Expression.length_rejected (clauses r.cond)

theorem length_conditions_add (r : LegacyRow) :
    r.reading.conjunction.conditions.length + r.reading.dropped.length +
      (clauses r.cond).countP isBlankClause = (clauses r.cond).length := by
  rw [length_dropped, reading, Expression.read_eq]
  exact Expression.length_accepted_add (clauses r.cond)

theorem lossless_eq (r : LegacyRow) : r.reading.lossless = !(clauses r.cond).any isUnknown := by
  have hempty : r.reading.dropped = [] ↔ ∀ c ∈ clauses r.cond, ¬isUnknown c = true := by
    rw [← List.length_eq_zero_iff, length_dropped, List.countP_eq_zero]
  rw [Expression.Reading.lossless, Bool.eq_iff_iff, List.isEmpty_iff, hempty]
  simp

end LegacyRow

theorem Summary.recordAll_eq (total : Summary) (legacy : List LegacyRow) :
    total.recordAll legacy =
      { migrated := total.migrated + legacy.length
        conditions := total.conditions +
          (legacy.map fun r ↦ r.reading.conjunction.conditions.length).sum
        dropped := total.dropped + (legacy.map fun r ↦ r.reading.dropped.length).sum
        lossy := total.lossy ++ (legacy.filter fun r ↦ !r.reading.lossless).map Row.id } := by
  induction legacy generalizing total with
  | nil => simp [recordAll]
  | cons r legacy ih =>
    have hstep : total.recordAll (r :: legacy) =
        (total.record r.id r.reading).recordAll legacy := rfl
    rw [hstep, ih, record]
    cases h : r.reading.lossless <;> simp [h, Nat.add_assoc, Nat.add_comm 1]

namespace Migration

variable {σ : Type} {fetch : Fetch σ} {sink : Sink σ} {s : σ} {dry : Bool} {total : Summary}
  {legacy : List LegacyRow}

/-- What a run that goes well says of its rows is so: their number, the conditions in the documents
that are stored for them, and which of them lost a clause, in order. Each clause is counted as a
condition or as dropped, or is blank; and a blank clause that is neither the first nor the last of
its row holds a space other than the blanks of delimiters. -/
theorem summary_accounts (hlegacy : (fetch s).1 = .ok legacy)
    (hresult : (run fetch sink dry s).result = .ok total) :
    total.migrated = legacy.length ∧
    (∃ stored : LegacyRow → List Json,
      (∀ r ∈ legacy, r.migrate.cond.get? "conditions" = some (.arr (stored r))) ∧
      total.conditions = (legacy.map fun r ↦ (stored r).length).sum) ∧
    total.lossy = (legacy.filter fun r ↦ (clauses r.cond).any isUnknown).map Row.id ∧
    total.conditions + total.dropped +
        (legacy.map fun r ↦ (clauses r.cond).countP isBlankClause).sum =
      (legacy.map fun r ↦ (clauses r.cond).length).sum ∧
    ∀ r ∈ legacy, ∀ before c after, clauses r.cond = before ++ c :: after →
      isBlankClause c = true →
        before = [] ∨ after = [] ∨ ∃ x ∈ c.toList, x = '\x0b' ∨ 0x80 ≤ x.toNat := by
  obtain ⟨legacy', hlegacy', rfl⟩ := total_of_run hresult
  cases hlegacy.symm.trans hlegacy'
  rw [Summary.recordAll_eq]
  refine ⟨Nat.zero_add _, ?_, ?_, ?_, ?_⟩
  · refine ⟨fun r ↦ r.reading.conjunction.conditions.map (·.toJson.sorted), ?_, ?_⟩
    · intro r hr
      exact r.conditions_migrate
    · simp
  · simp [LegacyRow.lossless_eq]
  · simp only [Nat.zero_add]
    rw [← List.sum_map_add, ← List.sum_map_add]
    simp only [LegacyRow.length_conditions_add]
  · intro r hr before c after hsplit hblank
    by_cases hbefore : before = []
    · exact .inl hbefore
    by_cases hafter : after = []
    · exact .inr (.inl hafter)
    exact .inr (.inr (Expression.inner_blank hsplit hbefore hafter hblank))

theorem summary_accounts_for_blanks :
    let rows : List LegacyRow :=
      [⟨7, "f", "n", "d", "( and score.mods & 8 and \u00a0 and what and mode_vn == 0)"⟩,
        ⟨8, "f", "n", "d", "score.perfect"⟩]
    let store : MemoryStore := ⟨rows, []⟩
    let total : Summary := ⟨2, 3, 1, [7]⟩
    (MemoryStore.fetch store).1 = .ok rows ∧
      (run MemoryStore.fetch MemoryStore.sink false store).result = .ok total ∧
      total.lossy = (rows.filter fun r ↦ (clauses r.cond).any isUnknown).map Row.id ∧
      total.conditions + total.dropped +
          (rows.map fun r ↦ (clauses r.cond).countP isBlankClause).sum =
        (rows.map fun r ↦ (clauses r.cond).length).sum ∧
      (rows.map fun r ↦ (clauses r.cond).length) = [5, 1] := by
  intro rows store total
  have hrows : (MemoryStore.fetch store).1 = .ok rows := rfl
  have htotal : Summary.recordAll {} rows = total := by decide +kernel
  have hresult : (run MemoryStore.fetch MemoryStore.sink false store).result = .ok total :=
    run_eq_ok_iff.mpr ⟨rows, _, hrows, .cons rfl (.cons rfl (.nil _)), rfl, htotal⟩
  obtain ⟨-, -, hlossy, hclauses, -⟩ := summary_accounts hrows hresult
  exact ⟨hrows, hresult, hlossy, hclauses, by decide +kernel⟩

end Migration

end Achievements
