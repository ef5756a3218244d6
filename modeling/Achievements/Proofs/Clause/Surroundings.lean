import Achievements.Proofs.Clause.Recognition
import Achievements.Proofs.Clause.Remnants

namespace Achievements.Clause

open Text

variable {t cs : List Char}

def Surrounded (t cs : List Char) : Prop := ∃ p s, Inert p ∧ Inert s ∧ cs = p ++ t ++ s

theorem Inert.reverse {p : List Char} (h : Inert p) : Inert p.reverse := by
  intro c hc
  exact h c (List.mem_reverse.1 hc)

theorem Edged.reverse (h : Edged t) : Edged t.reverse where
  ne_nil := by simpa using h.ne_nil
  starts c hc := h.ends c (by rwa [List.head?_reverse] at hc)
  ends c hc := h.starts c (by rwa [List.getLast?_reverse] at hc)

namespace Surrounded

theorem reverse (h : Surrounded t cs) : Surrounded t.reverse cs.reverse := by
  obtain ⟨p, s, hp, hs, rfl⟩ := h
  exact ⟨s.reverse, p.reverse, hs.reverse, hp.reverse, by simp⟩

theorem trimStart (ht : Edged t) (h : Surrounded t cs) : Surrounded t (trimStart cs) := by
  obtain ⟨p, s, hp, hs, rfl⟩ := h
  induction p with
  | nil =>
    refine ⟨[], s, hp, hs, dropWhile_eq_self_of_stops fun c hc ↦ ?_⟩
    rw [List.nil_append, List.head?_append_of_ne_nil _ ht.ne_nil] at hc
    exact isSpace_of_isWord (ht.starts c hc)
  | cons x p ih =>
    cases hx : isSpace x with
    | true =>
      have hdrop : Text.trimStart (x :: p ++ t ++ s) = Text.trimStart (p ++ t ++ s) :=
        List.dropWhile_cons_of_pos hx
      rw [hdrop]
      exact ih fun c hc ↦ hp c (List.mem_cons_of_mem x hc)
    | false => exact ⟨x :: p, s, hp, hs, dropWhile_eq_self_of_stops (stops_cons.2 hx)⟩

theorem trimEnd (ht : Edged t) (h : Surrounded t cs) : Surrounded t (trimEnd cs) := by
  have hreverse := (h.reverse.trimStart ht.reverse).reverse
  rwa [List.reverse_reverse] at hreverse

theorem unwrap (ht : Edged t) (h : Surrounded t cs) : Surrounded t (unwrap cs) := by
  by_cases hparens : cs.head? = some '(' ∧ cs.getLast? = some ')'
  · obtain ⟨p, s, hp, hs, rfl⟩ := h
    obtain ⟨hopen, hclose⟩ := hparens
    -- neither parenthesis is part of the text, whose ends are word characters
    have hp' : ∃ q, p = '(' :: q := by
      cases p with
      | nil =>
        rw [List.nil_append, List.head?_append_of_ne_nil _ ht.ne_nil] at hopen
        cases ht.starts _ hopen
      | cons x q => exact ⟨q, by simpa using hopen⟩
    have hs' : ∃ r, s = r ++ [')'] := by
      cases s using List.reverseRecOn with
      | nil =>
        rw [List.append_nil, List.getLast?_append_of_ne_nil _ ht.ne_nil] at hclose
        cases ht.ends _ hclose
      | append_singleton r x => exact ⟨r, by simpa using hclose⟩
    obtain ⟨q, rfl⟩ := hp'
    obtain ⟨r, rfl⟩ := hs'
    refine ⟨q, r, fun c hc ↦ hp c (by simp [hc]), fun c hc ↦ hs c (by simp [hc]), ?_⟩
    rw [← unwrap_parens (q ++ t ++ r)]
    simp
  · rwa [unwrap_eq_self hparens]

theorem body {clause : String} (ht : Edged t) (h : Surrounded t clause.toList) :
    Surrounded t (body clause) :=
  ((h.trimStart ht).trimEnd ht).unwrap ht

end Surrounded

theorem firstReading_of_surrounded (hflag : ∀ c, firstReading rules t ≠ some (.flag, c))
    (h : Surrounded t cs) : firstReading rules cs = firstReading rules t := by
  obtain ⟨p, s, hp, hs, rfl⟩ := h
  by_cases hne : p ≠ [] ∨ s ≠ []
  · rw [firstReading_around hp hs hne]
    cases hfirst : firstReading rules t with
    | none => rfl
    | some x =>
      obtain ⟨f, c⟩ := x
      have hf : f ≠ .flag := by
        intro hf
        exact hflag c (hf ▸ hfirst)
      exact if_pos (by simpa using hf)
  · rw [not_or, not_not, not_not] at hne
    rw [hne.1, hne.2, List.nil_append, List.append_nil]

namespace Written

variable {w : Written}

theorem edged_text (w : Written) : Edged w.text where
  ne_nil := text_ne_nil
  starts _ := isWord_of_mem_head?
  ends _ := isWord_of_mem_getLast?

theorem firstReading_ne_flag (h : w.form ≠ .flag) (c : Condition) :
    firstReading rules w.text ≠ some (.flag, c) := by
  intro hfirst
  rcases form_of_reads (firstReading_eq_some_iff.1 hfirst).1 with hform | ⟨-, hform⟩
  · exact h hform.symm
  · cases hform

end Written

/-- A clause that is no flag is read as it is alone, whatever inert text stands before and behind
it, in particular as its own condition if it is in range. Points and signs are inert too. -/
theorem classify_surrounded (w : Written) (hform : w.form ≠ .flag) (p s : String)
    (hp : Inert p.toList) (hs : Inert s.toList) :
    classify (p ++ .ofList w.text ++ s) = classify (.ofList w.text) ∧
      (w.InRange → classify (p ++ .ofList w.text ++ s) = some (w.form, w.condition)) := by
  have hsurrounded : Surrounded w.text (body (p ++ .ofList w.text ++ s)) := by
    apply Surrounded.body w.edged_text
    exact ⟨p.toList, s.toList, hp, hs, by simp⟩
  have halone : classify (p ++ .ofList w.text ++ s) = classify (.ofList w.text) := by
    rw [classify, firstReading_of_surrounded (Written.firstReading_ne_flag hform) hsurrounded,
      classify, Written.body_text]
  exact ⟨halone, fun h ↦ halone.trans (Written.classify_of_inRange h)⟩

theorem classify_surrounded_range :
    Inert "\t(( é".toList ∧ Inert " )→),\u00a0".toList ∧
      classify "\t(( é1 <= score.sr<2 )→),\u00a0" =
        some (.range, .range "sr" (.int 1) (.int 2)) := by
  let w : Written := .range (.whole ⟨['1'], by decide⟩) ⟨[' '], [' '], by decide, by decide⟩
    ⟨['s', 'r'], by decide⟩ ⟨[], [], by decide, by decide⟩ (.whole ⟨['2'], by decide⟩)
  have hp : Inert "\t(( é".toList := by decide
  have hs : Inert " )→),\u00a0".toList := by decide
  have hread := (classify_surrounded w (by decide) "\t(( é" " )→),\u00a0" hp hs).2 (by decide)
  have htext : "\t(( é" ++ String.ofList w.text ++ " )→),\u00a0" =
      "\t(( é1 <= score.sr<2 )→),\u00a0" := by
    decide +kernel
  rw [htext] at hread
  exact ⟨hp, hs, hread⟩

end Achievements.Clause
