import Achievements.Proofs.Clause.Classification

namespace Achievements.Clause

open Text

def Rule.unguarded (r : Rule) : Rule := { r with applies := fun _ ↦ true }

/-- The rules whose readers succeed only where their tests hold. -/
def selfGuarding : List Rule := [bitEquality, range, equality, flag]

/-- The tables that are reached from that of the rules by one change after another. -/
inductive Variant : List Rule → Prop
  | refl : Variant rules
  | swapBits {u v} : Variant (u ++ bitTest :: bitEquality :: v) →
      Variant (u ++ bitEquality :: bitTest :: v)
  | swapBounds {u v} : Variant (u ++ range :: lowerBound :: v) →
      Variant (u ++ lowerBound :: range :: v)
  | moveFlag {u v u' v'} : u ++ v = u' ++ v' → Variant (u ++ flag :: v) →
      Variant (u' ++ flag :: v')
  | dropTest {u v r} : r ∈ selfGuarding → Variant (u ++ r :: v) → Variant (u ++ r.unguarded :: v)

variable {cs t before after : List Char} {c d : Condition} {l u v : List Rule} {r : Rule}

section Tests

theorem eqEq_infix_of_bitEquality {a : List Char × List Char × List Char}
    (h : BitEqualityText a t) : '&' ∈ t ∧ eqEq <:+: t := by
  obtain ⟨u, op, rfl, ⟨amp, rfl, -, ⟨a₁, a₂, rfl, -⟩, -⟩, ⟨b₁, b₂, rfl, -⟩, -⟩ := h
  refine ⟨by simp, ?_⟩
  exact ⟨scoreDot ++ a.1 ++ (a₁ ++ ['&'] ++ a₂) ++ a.2.1 ++ b₁, b₂ ++ a.2.2, by simp⟩

theorem eqEq_infix_of_equality {a : List Char × List Char} (h : EqualityText a t) :
    eqEq <:+: t := by
  obtain ⟨dot, op, -, rfl, -, ⟨b₁, b₂, rfl, -⟩, -⟩ := h
  exact ⟨dot ++ a.1 ++ b₁, b₂ ++ a.2, by simp⟩

theorem le_infix_of_range {a : List Char × List Char × List Char} (h : RangeText a t) :
    le <:+: t := by
  obtain ⟨u, op, rfl, ⟨le', rfl, -, ⟨b₁, b₂, rfl, -⟩, -⟩, -⟩ := h
  exact ⟨a.1 ++ b₁, b₂ ++ scoreDot ++ a.2.1 ++ op ++ a.2.2, by simp⟩

theorem bareLess_of_range {a : List Char × List Char × List Char} (h : RangeText a t) :
    BareLess (before ++ t ++ after) := by
  obtain ⟨u, op, rfl, -, ⟨b₁, b₂, rfl, -, hb₂⟩, hmax⟩ := h
  refine ⟨before ++ u ++ b₁, b₂ ++ a.2.2 ++ after, by simp, fun heq ↦ ?_⟩
  cases b₂ with
  | cons x b₂ =>
    have hblank := hb₂ x (by simp)
    rw [Option.some.inj heq] at hblank
    cases hblank
  | nil =>
    obtain ⟨x, max, hx, hdigit⟩ := head_digit_of_isNumeral hmax
    rw [hx, List.nil_append, List.cons_append, List.head?_cons] at heq
    rw [Option.some.inj heq] at hdigit
    cases hdigit

theorem applies_bitEquality (h : readBitEquality cs = some c) : bitEquality.applies cs = true := by
  simp only [readBitEquality, Option.bind_eq_bind, Option.bind_eq_some_iff, Prod.exists] at h
  obtain ⟨stat, mask, equals, rest, hs, -⟩ := h
  obtain ⟨t, ht, hocc⟩ := (recognises_bitEquality.search_iff.1 ⟨rest, hs⟩).exists_occurrence
  obtain ⟨hamp, heq⟩ := eqEq_infix_of_bitEquality ht
  simp only [bitEquality, Bool.and_eq_true, decide_eq_true_eq, occurs_iff]
  exact ⟨hocc.subset hamp, heq.trans hocc⟩

theorem applies_range (h : readRange cs = some c) : range.applies cs = true := by
  simp only [readRange, Option.bind_eq_bind, Option.bind_eq_some_iff, Prod.exists] at h
  obtain ⟨min, stat, max, rest, hs, -⟩ := h
  obtain ⟨t, ht, hocc⟩ := (recognises_range.search_iff.1 ⟨rest, hs⟩).exists_occurrence
  simp only [range, Bool.and_eq_true, occurs_iff, hasBareLess_iff]
  refine ⟨(le_infix_of_range ht).trans hocc, ?_⟩
  obtain ⟨before, after, rfl⟩ := hocc
  exact bareLess_of_range ht

theorem applies_equality (h : readEquality cs = some c) : equality.applies cs = true := by
  simp only [readEquality, Option.bind_eq_bind, Option.bind_eq_some_iff, Prod.exists] at h
  obtain ⟨stat, value, rest, hs, -⟩ := h
  obtain ⟨t, ht, hocc⟩ := (recognises_equality.search_iff.1 ⟨rest, hs⟩).exists_occurrence
  exact occurs_iff.2 ((eqEq_infix_of_equality ht).trans hocc)

theorem applies_flag (h : readFlag cs = some c) : flag.applies cs = true := by
  have hreading := reading_flag.2 (readFlag_eq_some_iff.1 h)
  exact (reading_eq_some_iff.1 hreading).1

theorem applies_of_selfGuarding (hr : r ∈ selfGuarding) (h : r.read cs = some c) :
    r.applies cs = true := by
  simp only [selfGuarding, List.mem_cons, List.not_mem_nil, or_false] at hr
  rcases hr with rfl | rfl | rfl | rfl
  · exact applies_bitEquality h
  · exact applies_range h
  · exact applies_equality h
  · exact applies_flag h

/-- Every test but that of the flag rule asks for a character that no flag has. -/
theorem not_applies_of_flag (h : readFlag cs = some c) (hr : r ∈ rules) (hform : r.form ≠ .flag) :
    r.applies cs = false := by
  have hflag := readFlag_eq_some_iff.1 h
  cases hflag with
  | @flag stat hstat =>
    have hnot (x : Char) (hword : isWord x = false) (hdot : x ∉ scoreDot) :
        x ∉ scoreDot ++ stat := by
      rw [List.mem_append, not_or]
      exact ⟨hdot, isRun_not_mem hstat hword⟩
    have hamp := hnot '&' (by decide) (by decide)
    have heq : occurs eqEq (scoreDot ++ stat) = false := by
      rw [← Bool.not_eq_true, occurs_iff]
      exact fun hinf ↦ hnot '=' (by decide) (by decide) (hinf.subset (by decide))
    have hle : occurs le (scoreDot ++ stat) = false := by
      rw [← Bool.not_eq_true, occurs_iff]
      exact fun hinf ↦ hnot '=' (by decide) (by decide) (hinf.subset (by decide))
    simp only [rules, List.mem_cons, List.not_mem_nil, or_false] at hr
    rcases hr with rfl | rfl | rfl | rfl | rfl | rfl
    · simp [bitTest, hamp]
    · simp [bitEquality, hamp]
    · simp [range, hle]
    · simp [lowerBound, hle]
    · exact heq
    · exact absurd rfl hform

theorem reading_unguarded (h : r ∈ selfGuarding) : r.unguarded.reading cs = r.reading cs := by
  apply Option.ext
  intro c
  rw [reading_eq_some_iff, reading_eq_some_iff]
  constructor
  · intro hread
    exact ⟨applies_of_selfGuarding h hread.2, hread.2⟩
  · intro hread
    exact ⟨rfl, hread.2⟩

end Tests

section Tables

theorem firstReading_eq (l : List Rule) (cs : List Char) :
    firstReading l cs = l.findSome? fun r ↦ (r.reading cs).map (r.form, ·) := rfl

theorem firstReading_swap {r s : Rule} (h : r.reading cs = none ∨ s.reading cs = none) :
    firstReading (u ++ r :: s :: v) cs = firstReading (u ++ s :: r :: v) cs := by
  simp only [firstReading_eq, List.findSome?_append, List.findSome?_cons]
  rcases h with h | h <;> simp [h]

theorem firstReading_replace {r s : Rule} (hform : r.form = s.form)
    (hreading : r.reading cs = s.reading cs) :
    firstReading (u ++ r :: v) cs = firstReading (u ++ s :: v) cs := by
  simp only [firstReading_eq, List.findSome?_append, List.findSome?_cons, hform, hreading]

theorem reading_bits (cs : List Char) :
    bitTest.reading cs = none ∨ bitEquality.reading cs = none := by
  by_contra h
  rw [not_or, ← ne_eq, ← ne_eq, Option.ne_none_iff_exists', Option.ne_none_iff_exists'] at h
  obtain ⟨⟨c, hc⟩, d, hd⟩ := h
  have htest := (reading_eq_some_iff.1 hc).1
  have hequality := (reading_eq_some_iff.1 hd).1
  simp_all [bitTest, bitEquality]

theorem reading_bounds (cs : List Char) :
    range.reading cs = none ∨ lowerBound.reading cs = none := by
  by_contra h
  rw [not_or, ← ne_eq, ← ne_eq, Option.ne_none_iff_exists', Option.ne_none_iff_exists'] at h
  obtain ⟨⟨c, hc⟩, d, hd⟩ := h
  have hrange := (reading_eq_some_iff.1 hc).1
  have hbound := (reading_eq_some_iff.1 hd).1
  simp_all [range, lowerBound]

theorem form_of_reads_flag {f : Form} (h : Reads .flag cs c) (hf : Reads f cs d) :
    (f, d) = (.flag, c) := by
  obtain ⟨r, hr, rfl⟩ := exists_rule f
  have hread := readFlag_eq_some_iff.2 h
  have happlies := (reading_eq_some_iff.1 ((reading_iff hr).2 hf)).1
  by_cases hform : r.form = .flag
  · rw [hform, ← readFlag_eq_some_iff, hread, Option.some.injEq] at hf
    rw [hform, hf]
  · rw [not_applies_of_flag hread hr hform] at happlies
    cases happlies

def Faithful (l : List Rule) : Prop :=
  ∀ r ∈ l, ∀ cs c, r.reading cs = some c ↔ Reads r.form cs c

theorem firstReading_of_flag (hl : Faithful l) (hflag : flag ∈ l) (h : Reads .flag cs c) :
    firstReading l cs = some (.flag, c) := by
  obtain ⟨x, hx⟩ : ∃ x, firstReading l cs = some x := by
    rw [← Option.isSome_iff_exists, firstReading_eq, List.findSome?_isSome_iff]
    exact ⟨flag, hflag, by rw [reading_flag.2 h]; rfl⟩
  obtain ⟨r, hr, hread⟩ := List.exists_of_findSome?_eq_some hx
  obtain ⟨d, hd, rfl⟩ := Option.map_eq_some_iff.1 hread
  rw [hx, form_of_reads_flag h ((hl r hr cs d).1 hd)]

/-- Where the flag rule stands makes no difference: what it reads, only it reads. -/
theorem firstReading_moveFlag {u' v' : List Rule} (hmove : u ++ v = u' ++ v')
    (hl : Faithful (u ++ flag :: v)) (hl' : Faithful (u' ++ flag :: v')) :
    firstReading (u ++ flag :: v) cs = firstReading (u' ++ flag :: v') cs := by
  cases h : flag.reading cs with
  | some c =>
    have hflag := reading_flag.1 h
    rw [firstReading_of_flag hl (by simp) hflag, firstReading_of_flag hl' (by simp) hflag]
  | none =>
    have hskip (u v : List Rule) : firstReading (u ++ flag :: v) cs = firstReading (u ++ v) cs := by
      simp only [firstReading_eq, List.findSome?_append, List.findSome?_cons, h, Option.map_none]
    rw [hskip, hskip, hmove]

theorem Variant.faithful (h : Variant l) : Faithful l := by
  induction h with
  | refl => exact fun r hr cs c ↦ reading_iff hr
  | swapBits h ih | swapBounds h ih =>
    intro r hr
    apply ih
    simp only [List.mem_append, List.mem_cons] at hr ⊢
    tauto
  | @moveFlag u v u' v' hmove h ih =>
    intro r hr
    apply ih
    have hmem : r ∈ u' ++ v' ∨ r = flag := by
      simp only [List.mem_append, List.mem_cons] at hr ⊢
      tauto
    rw [← hmove] at hmem
    simp only [List.mem_append, List.mem_cons] at hmem ⊢
    tauto
  | @dropTest u v s hs h ih =>
    intro r hr cs c
    rw [List.mem_append, List.mem_cons] at hr
    rcases hr with hr | rfl | hr
    · exact ih r (by simp [hr]) cs c
    · rw [reading_unguarded hs]
      exact ih s (by simp) cs c
    · exact ih r (by simp [hr]) cs c

theorem Variant.firstReading_eq_rules (h : Variant l) :
    firstReading l cs = firstReading rules cs := by
  induction h with
  | refl => rfl
  | swapBits h ih => rw [← ih, firstReading_swap (reading_bits cs)]
  | swapBounds h ih => rw [← ih, firstReading_swap (reading_bounds cs)]
  | moveFlag hmove h ih =>
    rw [← ih]
    exact (firstReading_moveFlag hmove h.faithful (h.moveFlag hmove).faithful).symm
  | dropTest hr h ih =>
    rw [← ih]
    exact firstReading_replace rfl (reading_unguarded hr)

end Tables

/-- A table in which the rules for bits or those for bounds have changed places, the rule for flags
stands elsewhere, or self-guarding rules have no test, in any combination, classifies every clause
in the same way. For a self-guarding rule reads only what passes its test, and what the rule for
flags reads passes no other test. -/
theorem classify_by_variant :
    (∀ l, Variant l → ∀ clause, firstReading l (body clause) = classify clause) ∧
    (∀ r ∈ selfGuarding, ∀ cs c, r.read cs = some c → r.applies cs = true) ∧
    ∀ cs c, flag.read cs = some c → ∀ r ∈ rules, r.form ≠ .flag → r.applies cs = false :=
  ⟨fun _ h _ ↦ h.firstReading_eq_rules, fun _ hr _ _ ↦ applies_of_selfGuarding hr,
    fun _ _ h _ ↦ not_applies_of_flag h⟩

theorem classify_with_every_change :
    (fun clause ↦ firstReading [flag.unguarded, bitEquality.unguarded, bitTest, lowerBound,
      range.unguarded, equality.unguarded] (body clause)) = classify := by
  have hswapped : Variant [bitEquality, bitTest, lowerBound, range, equality, flag] :=
    .swapBounds (u := [bitEquality, bitTest]) (.swapBits (u := []) .refl)
  have hmoved : Variant [flag, bitEquality, bitTest, lowerBound, range, equality] :=
    @Variant.moveFlag [bitEquality, bitTest, lowerBound, range, equality] [] [] _ rfl hswapped
  funext clause
  apply classify_by_variant.1
  apply Variant.dropTest (u := []) (r := flag) (by simp [selfGuarding])
  apply Variant.dropTest (u := [flag]) (r := bitEquality) (by simp [selfGuarding])
  apply Variant.dropTest (u := [flag, bitEquality, bitTest, lowerBound]) (r := range)
    (by simp [selfGuarding])
  apply Variant.dropTest (u := [flag, bitEquality, bitTest, lowerBound, range]) (r := equality)
    (by simp [selfGuarding])
  exact hmoved

end Achievements.Clause
