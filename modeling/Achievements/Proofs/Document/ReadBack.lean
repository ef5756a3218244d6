import Achievements.Proofs.Document.Decoding
import Achievements.Proofs.Expression.Completeness
import Achievements.Proofs.Expression.WellFormed
import Achievements.Proofs.Json.ReadBack

namespace Achievements

namespace Number

def reread : Number → Number
  | int n => int n
  | float (.fin x) => float x.reread
  | float x => float x

theorem toJson_reread (n : Number) : n.reread.toJson = n.toJson.reread := by
  cases n with
  | int n => rfl
  | float x => cases x <;> rfl

theorem nesting_toJson (n : Number) : n.toJson.nesting = 0 := by
  cases n with
  | int n => rfl
  | float x => cases x <;> rfl

theorem isFinite_reread {n : Number} (h : n.isFinite = true) : n.reread.isFinite = true := by
  cases n with
  | int n => rfl
  | float x =>
    cases x with
    | fin x =>
      obtain ⟨y, hy, -⟩ := x.exists_reread
      rw [reread, hy]
      rfl
    | nan => cases h
    | inf neg => cases h

theorem isFinite_of_unsigned {n : Number} (h : n.Unsigned) : n.isFinite = true := by
  cases n with
  | int n => rfl
  | float x =>
    obtain ⟨y, rfl, -⟩ := h
    rfl

theorem isFinite_of_isInt {n : Number} (h : n.isInt = true) : n.isFinite = true := by
  cases n with
  | int n => rfl
  | float x => cases h

theorem reread_of_isInt {n : Number} (h : n.isInt = true) : n.reread = n := by
  cases n with
  | int n => rfl
  | float x => cases h

theorem reread_eq_self_iff {n : Number} :
    n.reread = n ↔
      ∀ x, n = .float (.fin x) → x.shown.product x.neg = x.shown.toBinary64 x.neg := by
  cases n with
  | int n => simp [reread]
  | float x =>
    cases x with
    | fin x => simp [reread, Finite64.reread, Finite64.toBinary64_shown]
    | nan => simp [reread]
    | inf neg => simp [reread]

end Number

namespace Condition

def reread : Condition → Condition
  | compare s op v => compare s op v.reread
  | range s lo hi => range s lo.reread hi.reread
  | bitEq s mask equals => bitEq s mask equals
  | bitNe s mask => bitNe s mask

theorem toJson_reread (c : Condition) : c.reread.toJson = c.toJson.reread := by
  cases c <;>
    simp [reread, toJson, Json.reread, Json.rereadMembers, Json.rereadMember, Number.toJson_reread,
      Comparison.toJson, tag, stat]

theorem nesting_toJson (c : Condition) : c.toJson.nesting = 1 := by
  cases c <;>
    simp [toJson, Json.nesting, Json.nestingMembers, Json.nestingMember, Number.nesting_toJson,
      Comparison.toJson]

theorem numbers_reread (c : Condition) : c.reread.numbers = c.numbers.map Number.reread := by
  cases c <;> rfl

theorem finite_reread {c : Condition} (h : c.Finite) : c.reread.Finite := by
  intro n hn
  rw [numbers_reread] at hn
  obtain ⟨m, hm, rfl⟩ := List.mem_map.1 hn
  exact Number.isFinite_reread (h m hm)

theorem reread_eq_self_iff {c : Condition} : c.reread = c ↔ ∀ n ∈ c.numbers, n.reread = n := by
  cases c <;> simp [reread, numbers]

end Condition

namespace Conjunction

def reread (c : Conjunction) : Conjunction := ⟨c.conditions.map Condition.reread⟩

theorem toJson_reread (c : Conjunction) : c.reread.toJson = c.toJson.reread := by
  have hitems : (c.conditions.map Condition.reread).map Condition.toJson =
      Json.rereadItems (c.conditions.map Condition.toJson) := by
    induction c.conditions with
    | nil => rfl
    | cons d ds ih =>
      simp only [List.map_cons, Json.rereadItems, ih, Condition.toJson_reread]
  simp only [reread, toJson, Json.reread, Json.rereadMembers, Json.rereadMember, hitems]

theorem nesting_toJson (c : Conjunction) : c.toJson.nesting ≤ Json.maxDepth := by
  have hitems : Json.nestingItems (c.conditions.map Condition.toJson) ≤ 1 := by
    induction c.conditions with
    | nil => decide
    | cons d ds ih =>
      simp only [List.map_cons, Json.nestingItems, Condition.nesting_toJson]
      omega
  simp only [toJson, Json.nesting, Json.nestingMembers, Json.nestingMember, Json.maxDepth]
  omega

theorem finite_reread {c : Conjunction} (h : c.Finite) : c.reread.Finite := by
  intro d hd
  obtain ⟨e, he, rfl⟩ := List.mem_map.1 hd
  exact Condition.finite_reread (h e he)

theorem reread_eq_self_iff {c : Conjunction} :
    c.reread = c ↔ ∀ n ∈ c.conditions.flatMap Condition.numbers, n.reread = n := by
  obtain ⟨ds⟩ := c
  have hconditions : ds.map Condition.reread = ds ↔ ∀ d ∈ ds, d.reread = d := by
    conv_lhs => rhs; rw [← List.map_id ds]
    exact List.map_inj_left
  simp only [reread, mk.injEq, hconditions, Condition.reread_eq_self_iff, List.mem_flatMap]
  constructor
  · rintro h n ⟨d, hd, hn⟩
    exact h d hd n hn
  · intro h d hd n hn
    exact h n ⟨d, hd, hn⟩

theorem json_parse_text (c : Conjunction) : Json.parse c.text = .ok c.reread.toValue := by
  rw [toValue, toJson_reread]
  exact Json.parse_write Json.Style.blank_compact c.nesting_toJson

theorem parse_text {c : Conjunction} (h : c.Finite) : parse c.text = .ok c.reread := by
  rw [parse, json_parse_text]
  exact ofValue_toValue (finite_reread h)

theorem parse_text_eq_self_iff {c : Conjunction} (h : c.Finite) :
    parse c.text = .ok c ↔ ∀ x, .float (.fin x) ∈ c.conditions.flatMap Condition.numbers →
      x.shown.product x.neg = x.shown.toBinary64 x.neg := by
  rw [parse_text h, Except.ok.injEq, reread_eq_self_iff]
  simp only [Number.reread_eq_self_iff]
  constructor
  · intro hn x hx
    exact hn _ hx x rfl
  · rintro hx n hn x rfl
    exact hx x hn

/-- Without doubles nothing is lost: the text of a document is read as its value, and as the
conjunction that it was written from. -/
theorem parse_text_of_isInt (c : Conjunction)
    (h : ∀ n ∈ c.conditions.flatMap Condition.numbers, n.isInt = true) :
    Json.parse c.text = .ok c.toValue ∧ parse c.text = .ok c := by
  have hself : c.reread = c := by
    rw [reread_eq_self_iff]
    intro n hn
    exact Number.reread_of_isInt (h n hn)
  have hfinite : c.Finite := by
    intro d hd n hn
    exact Number.isFinite_of_isInt (h n (List.mem_flatMap.2 ⟨d, hd, hn⟩))
  have hvalue := json_parse_text c
  have hparse := parse_text hfinite
  rw [hself] at hvalue hparse
  exact ⟨hvalue, hparse⟩

theorem parse_text_of_extremes :
    let c : Conjunction := ⟨[.compare "\"\\\x00\n\x7f" .atLeast (.int Int64.minValue),
      .range "" (.int (-1)) (.int Int64.maxValue), .bitEq "\u2028😀" 0xffffffff 0]⟩
    Json.parse c.text = .ok c.toValue ∧ parse c.text = .ok c :=
  parse_text_of_isInt _ (by decide)

end Conjunction

namespace Expression

theorem finite_read (expression : String) : (read expression).conjunction.Finite := by
  intro c hc n hn
  exact Number.isFinite_of_unsigned ((wellFormed_of_mem_read hc).numbers n hn)

/-- The document of an expression is read back: always to a conjunction, and to the same one exactly
if each of its doubles is computed from its text as the nearest one. -/
theorem reads_back_iff (expression : String) :
    Conjunction.parse (read expression).conjunction.text =
        .ok (read expression).conjunction.reread ∧
      (Conjunction.parse (read expression).conjunction.text = .ok (read expression).conjunction ↔
        ∀ x, .float (.fin x) ∈ (read expression).conjunction.conditions.flatMap Condition.numbers →
          x.shown.product x.neg = x.shown.toBinary64 x.neg) :=
  ⟨Conjunction.parse_text (finite_read expression),
    Conjunction.parse_text_eq_self_iff (finite_read expression)⟩

/-- Whatever an expression says, the conditions read of it are well formed, their document is a JSON
text, and their value is decoded to the same conjunction. -/
theorem stores_wellFormed (expression : String) :
    (∀ c ∈ (read expression).conjunction.conditions, c.WellFormed expression.toList) ∧
      Json.parse (read expression).conjunction.text =
        .ok (read expression).conjunction.reread.toValue ∧
      Conjunction.ofValue (read expression).conjunction.toValue =
        .ok (read expression).conjunction := by
  refine ⟨?_, ?_, ?_⟩
  · intro c hc
    exact wellFormed_of_mem_read hc
  · exact Conjunction.json_parse_text _
  · exact Conjunction.ofValue_toValue (finite_read expression)

/-- The text of this document shows the coefficient 90071992547409910. It has 57 bits, and the
rounding of it is not made good by the division by ten: the number that comes back is one less. -/
theorem drifts_by_one :
    (read "score.sr == 9007199254740991.0").conjunction =
        ⟨[.compare "sr" .equal (.float (.ofNat 9007199254740991))]⟩ ∧
      Conjunction.parse (read "score.sr == 9007199254740991.0").conjunction.text =
        .ok ⟨[.compare "sr" .equal (.float (.ofNat 9007199254740990))]⟩ ∧
      Conjunction.parse (read "score.sr == 9007199254740991.0").conjunction.text ≠
        .ok (read "score.sr == 9007199254740991.0").conjunction := by
  have hread : (read "score.sr == 9007199254740991.0").conjunction =
      ⟨[.compare "sr" .equal (.float (.ofNat 9007199254740991))]⟩ := by
    have hwritten := read_written (.equality true ⟨['s', 'r'], by decide⟩
      ⟨[' '], [' '], by decide, by decide⟩ (.point
        ⟨['9', '0', '0', '7', '1', '9', '9', '2', '5', '4', '7', '4', '0', '9', '9', '1'],
          by decide⟩ ⟨['0'], by decide⟩)) []
    exact (congrArg Reading.conjunction hwritten).trans (by decide +kernel)
  have hparse := Conjunction.parse_text (finite_read "score.sr == 9007199254740991.0")
  rw [hread] at hparse ⊢
  have hreread : Conjunction.reread ⟨[.compare "sr" .equal (.float (.ofNat 9007199254740991))]⟩ =
      ⟨[.compare "sr" .equal (.float (.ofNat 9007199254740990))]⟩ := by
    decide +kernel
  rw [hreread] at hparse
  refine ⟨rfl, hparse, ?_⟩
  rw [hparse, ne_eq, Except.ok.injEq]
  decide +kernel

end Expression

end Achievements
