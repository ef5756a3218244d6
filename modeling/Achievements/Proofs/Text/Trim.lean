import Achievements.Proofs.Text.Scanner

namespace Achievements.Text

variable {cs : List Char}

theorem isDigit_iff {c : Char} : c.isDigit = true ↔ 48 ≤ c.toNat ∧ c.toNat ≤ 57 := by
  simp only [Char.isDigit, Bool.and_eq_true, decide_eq_true_eq, UInt32.le_iff_toNat_le, ge_iff_le,
    Char.toNat]
  rfl

theorem isWord_toNat {c : Char} (h : isWord c = true) :
    48 ≤ c.toNat ∧ c.toNat ≤ 57 ∨ 65 ≤ c.toNat ∧ c.toNat ≤ 90 ∨ c.toNat = 95 ∨
      97 ≤ c.toNat ∧ c.toNat ≤ 122 := by
  have hclasses : (decide (65 ≤ c.val ∧ c.val ≤ 90) || (97 ≤ c.val && c.val ≤ 122) ||
      c.isDigit || c = '_') = true := h
  simp only [Bool.or_eq_true, Bool.and_eq_true, decide_eq_true_eq, UInt32.le_iff_toNat_le,
    isDigit_iff] at hclasses
  rcases hclasses with ((h | h) | h) | rfl
  · exact .inr (.inl h)
  · exact .inr (.inr (.inr h))
  · exact .inl h
  · exact .inr (.inr (.inl rfl))

theorem isWord_of_isDigit {c : Char} (h : c.isDigit = true) : isWord c = true := by
  simp [isWord, Char.isAlphanum, h]

theorem isSpace_of_isWord {c : Char} (h : isWord c = true) : isSpace c = false := by
  have hc := isWord_toNat h
  simp only [isSpace, Bool.or_eq_false_iff, Bool.and_eq_false_iff, decide_eq_false_iff_not]
  omega

theorem isBlank_of_not_isSpace {c : Char} (h : isSpace c = false) : isBlank c = false := by
  by_contra hb
  rw [isSpace_of_isBlank (by simpa using hb)] at h
  cases h

theorem isBlank_of_isWord {c : Char} (h : isWord c = true) : isBlank c = false :=
  isBlank_of_not_isSpace (isSpace_of_isWord h)

theorem isWord_of_isBlank {c : Char} (h : isBlank c = true) : isWord c = false := by
  by_contra hw
  rw [isBlank_of_isWord (by simpa using hw)] at h
  cases h

theorem isDigit_of_isBlank {c : Char} (h : isBlank c = true) : c.isDigit = false := by
  by_contra hd
  rw [isBlank_of_isWord (isWord_of_isDigit (by simpa using hd))] at h
  cases h

theorem isBlank_of_isDigit (c : Char) (h : c.isDigit = true) : isBlank c = false :=
  isBlank_of_isWord (isWord_of_isDigit h)

theorem ne_point_of_isBlank {c : Char} (h : isBlank c = true) : decide (c = '.') = false := by
  rw [decide_eq_false_iff_not]
  rintro rfl
  cases h

theorem IsNumeral.stops_isBlank {t rest : List Char} (h : IsNumeral t) :
    Stops isBlank (t ++ rest) := by
  rcases h with h | ⟨whole, frac, rfl, h, -⟩
  · exact h.stops isBlank_of_isDigit
  · rw [List.append_assoc]
    exact h.stops isBlank_of_isDigit

theorem trim_eq_self (hh : ∀ c ∈ cs.head?, isSpace c = false)
    (hl : ∀ c ∈ cs.getLast?, isSpace c = false) : trim cs = cs := by
  have h₁ : trimStart cs = cs := dropWhile_eq_self_of_stops hh
  have h₂ : Stops isSpace cs.reverse := by
    intro c hc
    rw [List.head?_reverse] at hc
    exact hl c hc
  rw [trim, h₁, trimEnd, dropWhile_eq_self_of_stops h₂, List.reverse_reverse]

theorem trim_of_isRun {p : Char → Bool} (h : IsRun p cs)
    (hp : ∀ c, p c = true → isSpace c = false) : trim cs = cs :=
  trim_eq_self (fun c hc ↦ hp c (h.2 c (List.mem_of_mem_head? hc)))
    fun c hc ↦ hp c (h.2 c (List.mem_of_getLast? hc))

theorem unwrap_eq_self (h : ¬ (cs.head? = some '(' ∧ cs.getLast? = some ')')) : unwrap cs = cs := by
  unfold unwrap
  split
  · next cs =>
    rw [if_neg fun hl ↦ h ⟨rfl, ?_⟩]
    rw [List.getLast?_cons, hl, Option.getD_some]
  · rfl

theorem infix_trim (cs : List Char) : trim cs <:+: cs := by
  have hend (cs : List Char) : trimEnd cs <+: cs := by
    rw [trimEnd, ← List.reverse_suffix, List.reverse_reverse]
    exact List.dropWhile_suffix isSpace
  exact (hend (trimStart cs)).isInfix.trans (List.dropWhile_suffix isSpace).isInfix

theorem infix_unwrap (cs : List Char) : unwrap cs <:+: cs := by
  unfold unwrap
  split
  · split
    · exact List.infix_cons (List.dropLast_prefix _).isInfix
    · exact List.infix_rfl
  · exact List.infix_rfl

theorem unwrap_parens (cs : List Char) : unwrap ('(' :: (cs ++ [')'])) = cs := by
  simp [unwrap]

end Achievements.Text
