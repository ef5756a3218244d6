import Achievements.Proofs.Clause.Grammar

namespace Achievements

open Text

def Form.rank : Form → Nat
  | bitTest => 1
  | bitEquality => 2
  | range => 3
  | lowerBound => 4
  | equality => 5
  | flag => 6

namespace Clause

/-- A form, a body that passes its test and whose leftmost text of that form has literals in range,
and the condition it stands for. -/
inductive Reads : Form → List Char → Condition → Prop
  | bitTest {body stat mask} : '&' ∈ body → ¬ eqEq <:+: body →
      Leftmost BitTestText body (stat, mask) → Decimal.ofDigits mask < 0x100000000 →
      Reads .bitTest body (.bitNe (.ofList stat) (.ofNat (Decimal.ofDigits mask)))
  | bitEquality {body stat mask equals} : '&' ∈ body → eqEq <:+: body →
      Leftmost BitEqualityText body (stat, mask, equals) → Decimal.ofDigits mask < 0x100000000 →
      Decimal.ofDigits equals < 0x100000000 →
      Reads .bitEquality body (.bitEq (.ofList stat) (.ofNat (Decimal.ofDigits mask))
        (.ofNat (Decimal.ofDigits equals)))
  | range {body min stat max lo hi} : le <:+: body → BareLess body →
      Leftmost RangeText body (min, stat, max) → Number.ofLiteral? min = some lo →
      Number.ofLiteral? max = some hi → Reads .range body (.range (.ofList stat) lo hi)
  | lowerBound {body min stat lo} : le <:+: body → ¬ BareLess body →
      Leftmost LowerBoundText body (min, stat) → Number.ofLiteral? min = some lo →
      Reads .lowerBound body (.compare (.ofList stat) .atLeast lo)
  | equality {body stat value v} : eqEq <:+: body → Leftmost EqualityText body (stat, value) →
      Number.ofLiteral? value = some v → Reads .equality body (.compare (.ofList stat) .equal v)
  | flag {stat} : IsRun isWord stat →
      Reads .flag (scoreDot ++ stat) (.compare (.ofList stat) .equal (.int 1))

variable {cs : List Char} {c : Condition}

theorem uint32?_eq_some_iff {n : Nat} {m : UInt32} :
    uint32? n = some m ↔ n < 0x100000000 ∧ m = .ofNat n := by
  simp only [uint32?]
  split
  · next h =>
    refine ⟨fun hm ↦ ⟨h, (Option.some.inj hm).symm⟩, ?_⟩
    rintro ⟨-, rfl⟩
    rfl
  · next h => exact ⟨fun hm ↦ absurd hm (by simp), fun hm ↦ absurd hm.1 h⟩

theorem maskOfLiteral?_eq_some_iff {ds : List Char} {m : UInt32} (h : IsRun Char.isDigit ds) :
    maskOfLiteral? ds = some m ↔
      Decimal.ofDigits ds < 0x100000000 ∧ m = .ofNat (Decimal.ofDigits ds) := by
  rw [maskOfLiteral?_of_isRun h, uint32?_eq_some_iff]

def Rule.reading (r : Rule) (cs : List Char) : Option Condition := (r.outcome? cs).join

theorem reading_eq_some_iff {r : Rule} :
    r.reading cs = some c ↔ r.applies cs = true ∧ r.read cs = some c := by
  unfold Rule.reading Rule.outcome?
  split <;> simp_all

theorem reading_bitTest : bitTest.reading cs = some c ↔ Reads .bitTest cs c := by
  simp only [reading_eq_some_iff, bitTest, readBitTest, Bool.and_eq_true, decide_eq_true_eq,
    Bool.not_eq_true', ← Bool.not_eq_true, occurs_iff, Option.bind_eq_bind,
    Option.bind_eq_some_iff, Prod.exists]
  constructor
  · rintro ⟨⟨hand, heq⟩, stat, mask, rest, hs, m, hm, ⟨⟩⟩
    have hl := recognises_bitTest.search_iff.1 ⟨rest, hs⟩
    obtain ⟨_, _, _, _, ⟨_, -, -, -, hmask⟩, -⟩ := id hl
    obtain ⟨hlt, rfl⟩ := (maskOfLiteral?_eq_some_iff hmask).1 hm
    exact .bitTest hand heq hl hlt
  · rintro (⟨hand, heq, hl, hlt⟩)
    obtain ⟨rest, hs⟩ := recognises_bitTest.search_iff.2 hl
    obtain ⟨_, _, _, _, ⟨_, -, -, -, hmask⟩, -⟩ := hl
    exact ⟨⟨hand, heq⟩, _, _, rest, hs, _, (maskOfLiteral?_eq_some_iff hmask).2 ⟨hlt, rfl⟩, rfl⟩

theorem reading_bitEquality : bitEquality.reading cs = some c ↔ Reads .bitEquality cs c := by
  simp only [reading_eq_some_iff, bitEquality, readBitEquality, Bool.and_eq_true,
    decide_eq_true_eq, occurs_iff, Option.bind_eq_bind, Option.bind_eq_some_iff, Prod.exists]
  constructor
  · rintro ⟨⟨hand, heq⟩, stat, mask, equals, rest, hs, m, hm, e, he, ⟨⟩⟩
    have hl := recognises_bitEquality.search_iff.1 ⟨rest, hs⟩
    obtain ⟨_, _, _, _, ⟨_, _, -, ⟨_, -, -, -, hmask⟩, -, hequals⟩, -⟩ := id hl
    obtain ⟨hmlt, rfl⟩ := (maskOfLiteral?_eq_some_iff hmask).1 hm
    obtain ⟨helt, rfl⟩ := (maskOfLiteral?_eq_some_iff hequals).1 he
    exact .bitEquality hand heq hl hmlt helt
  · rintro (_ | ⟨hand, heq, hl, hm, he⟩)
    obtain ⟨rest, hs⟩ := recognises_bitEquality.search_iff.2 hl
    obtain ⟨_, _, _, _, ⟨_, _, -, ⟨_, -, -, -, hmask⟩, -, hequals⟩, -⟩ := hl
    exact ⟨⟨hand, heq⟩, _, _, _, rest, hs, _, (maskOfLiteral?_eq_some_iff hmask).2 ⟨hm, rfl⟩, _,
      (maskOfLiteral?_eq_some_iff hequals).2 ⟨he, rfl⟩, rfl⟩

theorem reading_range : range.reading cs = some c ↔ Reads .range cs c := by
  simp only [reading_eq_some_iff, range, readRange, Bool.and_eq_true, occurs_iff, hasBareLess_iff,
    Option.bind_eq_bind, Option.bind_eq_some_iff, Prod.exists]
  constructor
  · rintro ⟨⟨hle, hless⟩, min, stat, max, rest, hs, lo, hlo, hi, hhi, ⟨⟩⟩
    exact .range hle hless (recognises_range.search_iff.1 ⟨rest, hs⟩) hlo hhi
  · rintro (_ | _ | ⟨hle, hless, hl, hlo, hhi⟩)
    obtain ⟨rest, hs⟩ := recognises_range.search_iff.2 hl
    exact ⟨⟨hle, hless⟩, _, _, _, rest, hs, _, hlo, _, hhi, rfl⟩

theorem reading_lowerBound : lowerBound.reading cs = some c ↔ Reads .lowerBound cs c := by
  simp only [reading_eq_some_iff, lowerBound, readLowerBound, Bool.and_eq_true,
    Bool.not_eq_true', ← Bool.not_eq_true, occurs_iff, hasBareLess_iff, Option.bind_eq_bind,
    Option.bind_eq_some_iff, Prod.exists]
  constructor
  · rintro ⟨⟨hle, hless⟩, min, stat, rest, hs, lo, hlo, ⟨⟩⟩
    exact .lowerBound hle hless (recognises_lowerBound.search_iff.1 ⟨rest, hs⟩) hlo
  · rintro (_ | _ | _ | ⟨hle, hless, hl, hlo⟩)
    obtain ⟨rest, hs⟩ := recognises_lowerBound.search_iff.2 hl
    exact ⟨⟨hle, hless⟩, _, _, rest, hs, _, hlo, rfl⟩

theorem reading_equality : equality.reading cs = some c ↔ Reads .equality cs c := by
  simp only [reading_eq_some_iff, equality, readEquality, occurs_iff, Option.bind_eq_bind,
    Option.bind_eq_some_iff, Prod.exists]
  constructor
  · rintro ⟨heq, stat, value, rest, hs, v, hv, ⟨⟩⟩
    exact .equality heq (recognises_equality.search_iff.1 ⟨rest, hs⟩) hv
  · rintro (_ | _ | _ | _ | ⟨heq, hl, hv⟩)
    obtain ⟨rest, hs⟩ := recognises_equality.search_iff.2 hl
    exact ⟨heq, _, _, rest, hs, _, hv, rfl⟩

theorem readFlag_eq_some_iff : readFlag cs = some c ↔ Reads .flag cs c := by
  constructor
  · intro h
    unfold readFlag at h
    split at h
    · next hs =>
      obtain ⟨rfl, hstat, -⟩ := scoreStat_sound hs
      cases h
      rw [List.append_nil]
      exact .flag hstat
    · cases h
  · rintro (_ | _ | _ | _ | _ | hs)
    have h := scoreStat_append hs stops_nil
    rw [List.append_nil] at h
    rw [readFlag, h]

theorem reading_flag : flag.reading cs = some c ↔ Reads .flag cs c := by
  rw [reading_eq_some_iff]
  simp only [flag]
  rw [readFlag_eq_some_iff, and_iff_right_iff_imp]
  rintro (_ | _ | _ | _ | _ | hs)
  rw [expect_eq_some_iff.2 rfl, Option.isSome_some]

theorem reading_iff {r : Rule} (hr : r ∈ rules) : r.reading cs = some c ↔ Reads r.form cs c := by
  simp only [rules, List.mem_cons, List.not_mem_nil, or_false] at hr
  rcases hr with rfl | rfl | rfl | rfl | rfl | rfl
  · exact reading_bitTest
  · exact reading_bitEquality
  · exact reading_range
  · exact reading_lowerBound
  · exact reading_equality
  · exact reading_flag

theorem exists_rule (f : Form) : ∃ r ∈ rules, r.form = f := by
  cases f <;> simp [rules, bitTest, bitEquality, range, lowerBound, equality, flag]

theorem rules_pairwise : rules.Pairwise fun r s ↦ r.form.rank < s.form.rank := by
  simp [rules, bitTest, bitEquality, range, lowerBound, equality, flag, Form.rank]

theorem firstReading_eq_some_iff {f : Form} : firstReading rules cs = some (f, c) ↔
    Reads f cs c ∧ ∀ g d, g.rank < f.rank → ¬ Reads g cs d := by
  have hp := rules_pairwise
  constructor
  · intro h
    obtain ⟨before, r, after, hrules, hr, hnone⟩ := List.findSome?_eq_some_iff.1 h
    obtain ⟨d, hd, he⟩ := Option.map_eq_some_iff.1 hr
    obtain ⟨rfl, rfl⟩ : r.form = f ∧ d = c := by simpa using he
    refine ⟨(reading_iff (by simp [hrules])).1 hd, fun g e hlt hg ↦ ?_⟩
    -- a rule of lower rank stands before, and nothing before reads the body
    obtain ⟨s, hs, rfl⟩ := exists_rule g
    have hread := (reading_iff hs).2 hg
    rw [hrules, List.pairwise_append, List.pairwise_cons] at hp
    rw [hrules, List.mem_append, List.mem_cons] at hs
    rcases hs with hs | rfl | hs
    · have hn := hnone s hs
      rw [Option.map_eq_none_iff] at hn
      exact absurd (hn.symm.trans hread) (by simp)
    · omega
    · have := hp.2.1.1 s hs
      omega
  · rintro ⟨hf, hfirst⟩
    obtain ⟨r, hr, rfl⟩ := exists_rule f
    have hread := (reading_iff hr).2 hf
    obtain ⟨before, after, hrules⟩ := List.append_of_mem hr
    refine List.findSome?_eq_some_iff.2 ⟨before, r, after, hrules, ?_, fun s hs ↦ ?_⟩
    · exact Option.map_eq_some_iff.2 ⟨c, hread, rfl⟩
    · have hs' : s ∈ rules := by simp [hrules, hs]
      rw [hrules, List.pairwise_append] at hp
      have hlt := hp.2.2 s hs r (by simp)
      rw [Option.map_eq_none_iff, Option.eq_none_iff_forall_ne_some]
      exact fun d hd ↦ hfirst s.form d hlt ((reading_iff hs').1 hd)

theorem firstReading_eq_none_iff :
    firstReading rules cs = none ↔ ∀ f d, ¬ Reads f cs d := by
  constructor
  · intro h f d hf
    obtain ⟨r, hr, rfl⟩ := exists_rule f
    have hn := List.findSome?_eq_none_iff.1 h r hr
    rw [Option.map_eq_none_iff] at hn
    exact absurd (hn.symm.trans ((reading_iff hr).2 hf)) (by simp)
  · intro h
    refine List.findSome?_eq_none_iff.2 fun r hr ↦ ?_
    rw [Option.map_eq_none_iff, Option.eq_none_iff_forall_ne_some]
    exact fun d hd ↦ h r.form d ((reading_iff hr).1 hd)

/-- A clause has the condition of the first rule that reads its body, and none if no rule does. -/
theorem classify_first_reading (clause : String) :
    (∀ f c, classify clause = some (f, c) ↔
      Reads f (body clause) c ∧ ∀ g d, g.rank < f.rank → ¬ Reads g (body clause) d) ∧
    (classify clause = none ↔ ∀ f c, ¬ Reads f (body clause) c) :=
  ⟨fun _ _ ↦ firstReading_eq_some_iff, firstReading_eq_none_iff⟩

end Clause

end Achievements
