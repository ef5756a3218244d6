import Achievements.Proofs.Expression.Composition

namespace Achievements

open Text

def Number.Unsigned : Number → Prop
  | int n => 0 ≤ n.toInt ∧ n.toInt ≤ 0x7fffffffffffffff
  | float x => ∃ y : Finite64, x = .fin y ∧ y.neg = false

/-- A condition whose stat is a word in a text. -/
structure Condition.WellFormed (source : List Char) (c : Condition) : Prop where
  word : IsRun isWord c.stat.toList
  occurs : c.stat.toList <:+: source
  numbers : ∀ n ∈ c.numbers, n.Unsigned

namespace Clause

variable {f : Form} {body : List Char} {c : Condition}

theorem Literal.unsigned_number {l : Literal} (h : l.InRange) : l.number.Unsigned := by
  cases l with
  | whole ds =>
    have hvalue : (Int64.ofNat ds.value).toInt = ds.value := Int64.toInt_ofNat_of_lt h
    have hlt : ds.value < 0x8000000000000000 := h
    rw [number, Number.Unsigned, hvalue]
    omega
  | point w f =>
    have hfinite : (nearest w f).isFinite = true := h
    rw [number, Number.Unsigned]
    cases hx : nearest w f with
    | fin y => exact ⟨y, rfl, Decimal.neg_of_toBinary64 hx⟩
    | nan => rw [hx] at hfinite; cases hfinite
    | inf neg => rw [hx] at hfinite; cases hfinite

theorem exists_literal {t : List Char} (h : IsNumeral t) : ∃ l : Literal, l.text = t := by
  rcases h with h | ⟨whole, frac, rfl, hw, hf⟩
  · exact ⟨.whole ⟨t, h⟩, rfl⟩
  · exact ⟨.point ⟨whole, hw⟩ ⟨frac, hf⟩, rfl⟩

theorem unsigned_of_ofLiteral? {t : List Char} {n : Number} (h : IsNumeral t)
    (hn : Number.ofLiteral? t = some n) : n.Unsigned := by
  obtain ⟨l, rfl⟩ := exists_literal h
  obtain ⟨hrange, rfl⟩ := Literal.ofLiteral?_text.1 hn
  exact Literal.unsigned_number hrange

section Stats

variable {stat mask equals min max value t : List Char}

theorem stat_of_bitTest (h : BitTestText (stat, mask) t) : IsRun isWord stat ∧ stat <:+: t := by
  obtain ⟨op, rfl, hstat, -⟩ := h
  exact ⟨hstat, scoreDot, op ++ mask, by simp⟩

theorem stat_of_bitEquality (h : BitEqualityText (stat, mask, equals) t) :
    IsRun isWord stat ∧ stat <:+: t := by
  obtain ⟨u, op, rfl, hu, -⟩ := h
  obtain ⟨hstat, hocc⟩ := stat_of_bitTest hu
  refine ⟨hstat, hocc.trans ?_⟩
  exact ⟨[], op ++ equals, by simp⟩

theorem stat_of_lowerBound (h : LowerBoundText (min, stat) t) :
    IsNumeral min ∧ IsRun isWord stat ∧ stat <:+: t := by
  obtain ⟨op, rfl, hmin, -, hstat⟩ := h
  exact ⟨hmin, hstat, (List.suffix_append _ _).isInfix⟩

theorem stat_of_range (h : RangeText (min, stat, max) t) :
    IsNumeral min ∧ IsNumeral max ∧ IsRun isWord stat ∧ stat <:+: t := by
  obtain ⟨u, op, rfl, hu, -, hmax⟩ := h
  obtain ⟨hmin, hstat, hocc⟩ := stat_of_lowerBound hu
  refine ⟨hmin, hmax, hstat, hocc.trans ?_⟩
  exact ⟨[], op ++ max, by simp⟩

theorem stat_of_equality (h : EqualityText (stat, value) t) :
    IsNumeral value ∧ IsRun isWord stat ∧ stat <:+: t := by
  obtain ⟨dot, op, -, rfl, hstat, -, hvalue⟩ := h
  exact ⟨hvalue, hstat, dot, op ++ value, by simp⟩

theorem wellFormed_of_stat (hc : c.stat = .ofList stat) (hword : IsRun isWord stat)
    (hocc : stat <:+: body) (hnumbers : ∀ n ∈ c.numbers, n.Unsigned) : c.WellFormed body := by
  have hlist : c.stat.toList = stat := by rw [hc, String.toList_ofList]
  refine ⟨?_, ?_, hnumbers⟩
  · rw [hlist]
    exact hword
  · rw [hlist]
    exact hocc

end Stats

theorem wellFormed_of_reads (h : Reads f body c) : c.WellFormed body := by
  cases h with
  | bitTest _ _ hl _ =>
    obtain ⟨t, ht, hocc⟩ := hl.exists_occurrence
    obtain ⟨hword, hstat⟩ := stat_of_bitTest ht
    exact wellFormed_of_stat rfl hword (hstat.trans hocc) (by simp [Condition.numbers])
  | bitEquality _ _ hl _ _ =>
    obtain ⟨t, ht, hocc⟩ := hl.exists_occurrence
    obtain ⟨hword, hstat⟩ := stat_of_bitEquality ht
    exact wellFormed_of_stat rfl hword (hstat.trans hocc) (by simp [Condition.numbers])
  | range _ _ hl hlo hhi =>
    obtain ⟨t, ht, hocc⟩ := hl.exists_occurrence
    obtain ⟨hmin, hmax, hword, hstat⟩ := stat_of_range ht
    have hlo := unsigned_of_ofLiteral? hmin hlo
    have hhi := unsigned_of_ofLiteral? hmax hhi
    exact wellFormed_of_stat rfl hword (hstat.trans hocc) (by simp [Condition.numbers, hlo, hhi])
  | lowerBound _ _ hl hlo =>
    obtain ⟨t, ht, hocc⟩ := hl.exists_occurrence
    obtain ⟨hmin, hword, hstat⟩ := stat_of_lowerBound ht
    have hlo := unsigned_of_ofLiteral? hmin hlo
    exact wellFormed_of_stat rfl hword (hstat.trans hocc) (by simp [Condition.numbers, hlo])
  | equality _ hl hv =>
    obtain ⟨t, ht, hocc⟩ := hl.exists_occurrence
    obtain ⟨hvalue, hword, hstat⟩ := stat_of_equality ht
    have hv := unsigned_of_ofLiteral? hvalue hv
    exact wellFormed_of_stat rfl hword (hstat.trans hocc) (by simp [Condition.numbers, hv])
  | flag hword =>
    have hone : (Number.int 1).Unsigned := by simp [Number.Unsigned]
    exact wellFormed_of_stat rfl hword (List.suffix_append _ _).isInfix
      (by simp [Condition.numbers, hone])

end Clause

namespace Expression

theorem infix_of_mem_splitFrom {piece cs c : List Char} (h : c ∈ splitFrom piece cs) :
    c <:+: piece.reverse ++ cs := by
  fun_induction splitFrom piece cs with
  | case1 piece cs rest hrest ih =>
    obtain ⟨d, rfl, -⟩ := delimiter_sound hrest
    rcases List.mem_cons.1 h with rfl | h
    · exact (List.prefix_append _ _).isInfix
    · refine (ih h).trans ?_
      exact ⟨piece.reverse ++ d.text, [], by simp⟩
  | case2 piece hnone =>
    rw [List.mem_singleton] at h
    rw [h, List.append_nil]
  | case3 piece x cs hnone ih =>
    have hx := ih h
    rwa [List.reverse_cons, List.append_assoc, List.singleton_append] at hx

theorem infix_of_mem_clauses {expression clause : String} (h : clause ∈ clauses expression) :
    clause.toList <:+: expression.toList := by
  obtain ⟨c, hc, rfl⟩ := List.mem_map.1 h
  rw [String.toList_ofList]
  calc c <:+: unwrap (trim expression.toList) := infix_of_mem_splitFrom hc
    _ <:+: trim expression.toList := infix_unwrap _
    _ <:+: expression.toList := infix_trim _

theorem wellFormed_of_mem_read {expression : String} {c : Condition}
    (hc : c ∈ (read expression).conjunction.conditions) : c.WellFormed expression.toList := by
  obtain ⟨clause, hclause, f, hf⟩ := mem_conditions_read.1 hc
  have hbody := Clause.wellFormed_of_reads (Clause.firstReading_eq_some_iff.1 hf).1
  refine ⟨hbody.word, ?_, hbody.numbers⟩
  calc c.stat.toList <:+: Clause.body clause := hbody.occurs
    _ <:+: trim clause.toList := infix_unwrap _
    _ <:+: clause.toList := infix_trim _
    _ <:+: expression.toList := infix_of_mem_clauses hclause

end Expression

end Achievements
