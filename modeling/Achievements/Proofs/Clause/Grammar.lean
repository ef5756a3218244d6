import Achievements.Clause.Rule
import Achievements.Proofs.Clause.Literal

namespace Achievements.Clause

open Text

variable {cs t rest : List Char}

def BitTestText : List Char × List Char → List Char → Prop
  | (stat, mask), t => ∃ op, t = scoreDot ++ stat ++ op ++ mask ∧ IsRun isWord stat ∧
      Spaced ['&'] op ∧ IsRun Char.isDigit mask

def BitEqualityText : List Char × List Char × List Char → List Char → Prop
  | (stat, mask, equals), t => ∃ u op, t = u ++ op ++ equals ∧ BitTestText (stat, mask) u ∧
      Spaced eqEq op ∧ IsRun Char.isDigit equals

def LowerBoundText : List Char × List Char → List Char → Prop
  | (min, stat), t => ∃ op, t = min ++ op ++ scoreDot ++ stat ∧ IsNumeral min ∧
      Spaced le op ∧ IsRun isWord stat

def RangeText : List Char × List Char × List Char → List Char → Prop
  | (min, stat, max), t => ∃ u op, t = u ++ op ++ max ∧ LowerBoundText (min, stat) u ∧
      Spaced ['<'] op ∧ IsNumeral max

def EqualityText : List Char × List Char → List Char → Prop
  | (stat, value), t => ∃ dot op, (dot = [] ∨ dot = scoreDot) ∧ t = dot ++ stat ++ op ++ value ∧
      IsRun isWord stat ∧ Spaced eqEq op ∧ IsNumeral value

/-- A `<` that is not the start of `<=`. -/
def BareLess (cs : List Char) : Prop :=
  ∃ before after, cs = before ++ '<' :: after ∧ after.head? ≠ some '='

theorem hasBareLess_iff : hasBareLess cs = true ↔ BareLess cs := by
  simp only [hasBareLess, decide_eq_true_eq]
  fun_induction withoutLe cs with
  | case1 cs ih =>
    rw [ih]
    constructor
    · rintro ⟨before, after, rfl, h⟩
      exact ⟨'<' :: '=' :: before, after, rfl, h⟩
    · rintro ⟨before, after, hcs, h⟩
      rcases before with _ | ⟨c, _ | ⟨d, before⟩⟩
      · rw [← (List.cons.inj hcs).2] at h
        exact absurd rfl h
      · simp at hcs
      · exact ⟨before, after, by simp_all, h⟩
  | case2 c cs hc ih =>
    rw [List.mem_cons, ih]
    constructor
    · rintro (rfl | ⟨before, after, rfl, h⟩)
      · refine ⟨[], cs, rfl, fun h ↦ ?_⟩
        obtain ⟨cs, rfl⟩ := List.head?_eq_some_iff.1 h
        exact hc cs rfl rfl
      · exact ⟨c :: before, after, rfl, h⟩
    · rintro ⟨_ | ⟨d, before⟩, after, hcs, h⟩
      · exact .inl (List.cons.inj hcs).1.symm
      · exact .inr ⟨before, after, (List.cons.inj hcs).2, h⟩
  | case3 => simp [BareLess]

def startsBare : List Char → Bool
  | '<' :: cs => cs.head? ≠ some '='
  | _ => false

theorem count_withoutLe (cs : List Char) :
    (withoutLe cs).count '<' = cs.tails.countP startsBare := by
  fun_induction withoutLe cs with
  | case1 cs ih => simp [startsBare, ih]
  | case2 c cs hc ih =>
    rw [List.count_cons, List.tails_cons, List.countP_cons, ih]
    congr 1
    by_cases h : c = '<'
    · subst h
      have hne : cs.head? ≠ some '=' := by
        intro he
        obtain ⟨cs, rfl⟩ := List.head?_eq_some_iff.1 he
        exact hc cs rfl rfl
      simp [startsBare, hne]
    · simp [startsBare, h]
  | case3 => rfl

/-- Deleting every `<=` leaves as many `<` as there were bare ones, so that one is left exactly if
the text had one. Of the tests for ranges and lower bounds exactly one holds where `<=` occurs, and
neither elsewhere. -/
theorem bareLess_outlives_deletion (cs : List Char) :
    (withoutLe cs).count '<' = cs.tails.countP startsBare ∧
      (hasBareLess cs = true ↔ BareLess cs) ∧
      (Xor (range.applies cs = true) (lowerBound.applies cs = true) ↔ le <:+: cs) := by
  refine ⟨count_withoutLe cs, hasBareLess_iff, ?_⟩
  simp only [range, lowerBound, Bool.and_eq_true, Bool.not_eq_true', occurs_iff]
  cases hasBareLess cs <;> simp [Xor]

-- What is left of the first text is `<=`, brought together by the deletion.
example : hasBareLess "<<==".toList = true ∧ hasBareLess "<=<=".toList = false := by decide

section Patterns

variable {stat op : List Char}

theorem stops_isBlank_scoreDot : Stops isBlank (scoreDot ++ rest) := stops_cons.2 (by decide)

theorem scoreStat_append (hs : IsRun isWord stat) (hr : Stops isWord rest) :
    scoreStat (scoreDot ++ (stat ++ rest)) = some (stat, rest) := by
  rw [scoreStat, expect_eq_some_iff.2 rfl, Option.bind_some, word, run_append_of_stops hs hr]

theorem scoreStat_sound (h : scoreStat cs = some (stat, rest)) :
    cs = scoreDot ++ (stat ++ rest) ∧ IsRun isWord stat ∧ Stops isWord rest := by
  obtain ⟨u, hu, hw⟩ := Option.bind_eq_some_iff.1 h
  obtain ⟨rfl, hs⟩ := run_sound hw
  exact ⟨expect_eq_some_iff.1 hu, hs⟩

theorem bitTestAt_append (hs : IsRun isWord stat) (ho : Spaced ['&'] op) (hr : Stops isBlank rest) :
    bitTestAt (scoreDot ++ stat ++ op ++ rest) =
      (digits rest).map fun x ↦ ((stat, x.1), x.2) := by
  have hw : Stops isWord (op ++ rest) := ho.stops (by decide) fun _ ↦ isWord_of_isBlank
  simp only [bitTestAt, List.append_assoc, scoreStat_append hs hw,
    token_append ho (by simp) (stops_cons.2 (by decide)) hr, Option.bind_eq_bind, Option.bind_some]
  cases digits rest <;> rfl

theorem bitTestAt_of_stops {a : List Char × List Char} (h : BitTestText a t)
    (hr : Stops Char.isDigit rest) : bitTestAt (t ++ rest) = some (a, rest) := by
  obtain ⟨op, rfl, hs, ho, hm⟩ := h
  rw [List.append_assoc, bitTestAt_append hs ho (hm.stops isBlank_of_isDigit), digits,
    run_append_of_stops hm hr, Option.map_some]

theorem recognises_bitTest : Recognises bitTestAt BitTestText where
  sound {cs a rest} h := by
    simp only [bitTestAt, Option.bind_eq_bind, Option.bind_eq_some_iff, Prod.exists] at h
    obtain ⟨stat, r₁, hs, r₂, ht, mask, r₃, hm, ⟨⟩⟩ := h
    obtain ⟨rfl, hstat, -⟩ := scoreStat_sound hs
    obtain ⟨op, hop, rfl, -⟩ := token_sound ht
    obtain ⟨rfl, hmask, -⟩ := run_sound hm
    exact ⟨_, by simp, op, rfl, hstat, hop, hmask⟩
  complete post h := by
    obtain ⟨op, rfl, hs, ho, hm⟩ := h
    exact (recognises_run Char.isDigit).complete_of_eq_map ⟨rfl, hm⟩ post
      (bitTestAt_append hs ho (hm.stops isBlank_of_isDigit))

theorem recognises_bitEquality : Recognises bitEqualityAt BitEqualityText where
  sound {cs a rest} h := by
    simp only [bitEqualityAt, Option.bind_eq_bind, Option.bind_eq_some_iff, Prod.exists] at h
    obtain ⟨stat, mask, r₁, hb, r₂, ht, equals, r₃, he, ⟨⟩⟩ := h
    obtain ⟨u, rfl, hu⟩ := recognises_bitTest.sound hb
    obtain ⟨op, hop, rfl, -⟩ := token_sound ht
    obtain ⟨rfl, hequals, -⟩ := run_sound he
    exact ⟨_, by simp, u, op, rfl, hu, hop, hequals⟩
  complete {a t} post h := by
    obtain ⟨stat, mask, equals⟩ := a
    obtain ⟨u, op, rfl, hu, ho, he⟩ := h
    refine (recognises_run Char.isDigit).complete_of_eq_map
      (f := fun e ↦ (stat, mask, e)) ⟨rfl, he⟩ post ?_
    have hd : Stops Char.isDigit (op ++ (equals ++ post)) :=
      ho.stops (by decide) fun _ ↦ isDigit_of_isBlank
    simp only [bitEqualityAt, List.append_assoc, bitTestAt_of_stops hu hd, Option.bind_eq_bind,
      Option.bind_some, token_append ho (by decide) (stops_cons.2 (by decide))
        (he.stops isBlank_of_isDigit)]
    rw [digits]
    cases run Char.isDigit (equals ++ post) <;> rfl

variable {min : List Char}

theorem lowerBoundAt_append (hm : IsNumeral min) (ho : Spaced le op) :
    lowerBoundAt (min ++ op ++ scoreDot ++ rest) = (word rest).map fun x ↦ ((min, x.1), x.2) := by
  have hd : Stops Char.isDigit (op ++ (scoreDot ++ rest)) :=
    ho.stops (by decide) fun _ ↦ isDigit_of_isBlank
  have hp : Stops (· = '.') (op ++ (scoreDot ++ rest)) :=
    ho.stops (by decide) fun _ ↦ ne_point_of_isBlank
  simp only [lowerBoundAt, List.append_assoc, numeral_append hm hd hp,
    token_append ho (by decide) (stops_cons.2 (by decide)) stops_isBlank_scoreDot, scoreStat,
    expect_eq_some_iff.2 (rfl : scoreDot ++ rest = scoreDot ++ rest), Option.bind_eq_bind,
    Option.bind_some]
  cases word rest <;> rfl

theorem lowerBoundAt_of_stops {a : List Char × List Char} (h : LowerBoundText a t)
    (hr : Stops isWord rest) : lowerBoundAt (t ++ rest) = some (a, rest) := by
  obtain ⟨op, rfl, hm, ho, hs⟩ := h
  rw [List.append_assoc, lowerBoundAt_append hm ho, word, run_append_of_stops hs hr,
    Option.map_some]

theorem recognises_lowerBound : Recognises lowerBoundAt LowerBoundText where
  sound {cs a rest} h := by
    simp only [lowerBoundAt, Option.bind_eq_bind, Option.bind_eq_some_iff, Prod.exists] at h
    obtain ⟨min, r₁, hn, r₂, ht, stat, r₃, hs, ⟨⟩⟩ := h
    obtain ⟨rfl, hmin⟩ := numeral_sound hn
    obtain ⟨op, hop, rfl, -⟩ := token_sound ht
    obtain ⟨rfl, hstat, -⟩ := scoreStat_sound hs
    exact ⟨_, by simp, op, rfl, hmin, hop, hstat⟩
  complete post h := by
    obtain ⟨op, rfl, hm, ho, hs⟩ := h
    exact (recognises_run isWord).complete_of_eq_map ⟨rfl, hs⟩ post (lowerBoundAt_append hm ho)

theorem recognises_range : Recognises rangeAt RangeText where
  sound {cs a rest} h := by
    simp only [rangeAt, Option.bind_eq_bind, Option.bind_eq_some_iff, Prod.exists] at h
    obtain ⟨min, stat, r₁, hb, r₂, ht, max, r₃, hn, ⟨⟩⟩ := h
    obtain ⟨u, rfl, hu⟩ := recognises_lowerBound.sound hb
    obtain ⟨op, hop, rfl, -⟩ := token_sound ht
    obtain ⟨rfl, hmax⟩ := numeral_sound hn
    exact ⟨_, by simp, u, op, rfl, hu, hop, hmax⟩
  complete {a t} post h := by
    obtain ⟨min, stat, max⟩ := a
    obtain ⟨u, op, rfl, hu, ho, hm⟩ := h
    refine recognises_numeral.complete_of_eq_map (f := fun m ↦ (min, stat, m)) ⟨rfl, hm⟩ post ?_
    have hw : Stops isWord (op ++ (max ++ post)) := ho.stops (by decide) fun _ ↦ isWord_of_isBlank
    simp only [rangeAt, List.append_assoc, lowerBoundAt_of_stops hu hw, Option.bind_eq_bind,
      Option.bind_some, token_append ho (by decide) (stops_cons.2 (by decide)) hm.stops_isBlank]
    cases numeral (max ++ post) <;> rfl

theorem expect_scoreDot_eq_none (hs : IsRun isWord stat) (ho : Spaced eqEq op) :
    expect scoreDot (stat ++ (op ++ rest)) = none := by
  rw [Option.eq_none_iff_forall_ne_some]
  intro u hu
  have hw : Stops isWord (op ++ rest) := ho.stops (by decide) fun _ ↦ isWord_of_isBlank
  have hscore : IsRun isWord ['s', 'c', 'o', 'r', 'e'] := by decide
  have h₁ := run_append_of_stops hs hw
  have hdot : Stops isWord ('.' :: u) := stops_cons.2 (by decide)
  have h₂ := run_append_of_stops hscore hdot
  rw [expect_eq_some_iff.1 hu] at h₁
  have hop : op ++ rest = '.' :: u := by
    have h := h₁.symm.trans h₂
    simp only [Option.some.injEq, Prod.mk.injEq] at h
    exact h.2
  have hp : Stops (· = '.') (op ++ rest) := ho.stops (by decide) fun _ ↦ ne_point_of_isBlank
  rw [hop, stops_cons] at hp
  cases hp

theorem equalityAt_append {dot : List Char} (hd : dot = [] ∨ dot = scoreDot)
    (hs : IsRun isWord stat) (ho : Spaced eqEq op) (hr : Stops isBlank rest) :
    equalityAt (dot ++ stat ++ op ++ rest) = (numeral rest).map fun x ↦ ((stat, x.1), x.2) := by
  have hw : Stops isWord (op ++ rest) := ho.stops (by decide) fun _ ↦ isWord_of_isBlank
  have hstat : (expect scoreDot (dot ++ (stat ++ (op ++ rest)))).getD
      (dot ++ (stat ++ (op ++ rest))) = stat ++ (op ++ rest) := by
    rcases hd with rfl | rfl
    · rw [List.nil_append, expect_scoreDot_eq_none hs ho, Option.getD_none]
    · rw [expect_eq_some_iff.2 rfl, Option.getD_some]
  simp only [equalityAt, List.append_assoc, hstat, word, run_append_of_stops hs hw,
    token_append ho (by decide) (stops_cons.2 (by decide)) hr, Option.bind_eq_bind,
    Option.bind_some]
  cases numeral rest <;> rfl

theorem recognises_equality : Recognises equalityAt EqualityText where
  sound {cs a rest} h := by
    simp only [equalityAt, Option.bind_eq_bind, Option.bind_eq_some_iff, Prod.exists] at h
    obtain ⟨stat, r₁, hs, r₂, ht, value, r₃, hn, ⟨⟩⟩ := h
    obtain ⟨hcs, hstat, -⟩ := run_sound hs
    obtain ⟨op, hop, rfl, -⟩ := token_sound ht
    obtain ⟨rfl, hvalue⟩ := numeral_sound hn
    cases he : expect scoreDot cs with
    | none =>
      rw [he, Option.getD_none] at hcs
      exact ⟨[] ++ stat ++ op ++ value, by simp [hcs], [], op, .inl rfl, rfl, hstat, hop, hvalue⟩
    | some u =>
      rw [he, Option.getD_some] at hcs
      refine ⟨scoreDot ++ stat ++ op ++ value, ?_, scoreDot, op, .inr rfl, rfl, hstat, hop, hvalue⟩
      rw [expect_eq_some_iff.1 he, hcs]
      simp
  complete post h := by
    obtain ⟨dot, op, hd, rfl, hs, ho, hv⟩ := h
    exact recognises_numeral.complete_of_eq_map ⟨rfl, hv⟩ post
      (equalityAt_append hd hs ho hv.stops_isBlank)

end Patterns

end Achievements.Clause
