import Achievements.Proofs.Clause.Written

namespace Achievements.Clause

open Text

namespace Written

variable {w : Written} {f : Form} {c : Condition}

def operators : Written → List Char
  | bitTest .. => ['&']
  | bitEquality .. => ['&'] ++ eqEq
  | range .. => le ++ ['<']
  | lowerBound .. => le
  | equality .. => eqEq
  | flag .. => []

theorem not_mem_scoreDot {x : Char} (hw : isWord x = false) (hp : x ≠ '.') : x ∉ scoreDot := by
  intro hm
  have hall : scoreDot.all (fun y ↦ isWord y || y = '.') = true := by decide
  have hx := List.all_eq_true.1 hall x hm
  simp [hw, hp] at hx

theorem count_text (w : Written) {x : Char} (hw : isWord x = false) (hb : isBlank x = false)
    (hp : x ≠ '.') : w.text.count x = w.operators.count x := by
  have hd : x.isDigit = false := by
    by_contra hd
    rw [isWord_of_isDigit (by simpa using hd)] at hw
    cases hw
  have hword (r : Word) : r.chars.count x = 0 := List.count_eq_zero.2 (isRun_not_mem r.isRun hw)
  have hdigits (r : Digits) : r.chars.count x = 0 := List.count_eq_zero.2 (isRun_not_mem r.isRun hd)
  have hliteral (l : Literal) : l.text.count x = 0 :=
    List.count_eq_zero.2 (Literal.not_mem_text hd hp)
  have hgap (g : Gap) (op : List Char) : (g.around op).count x = op.count x := by
    have hbefore : x ∉ g.before := fun hm ↦ by rw [g.allBlank_before x hm] at hb; cases hb
    have hafter : x ∉ g.after := fun hm ↦ by rw [g.allBlank_after x hm] at hb; cases hb
    simp [Gap.around, List.count_eq_zero.2 hbefore, List.count_eq_zero.2 hafter]
  have hdot : scoreDot.count x = 0 := List.count_eq_zero.2 (not_mem_scoreDot hw hp)
  cases w with
  | equality dotted =>
    cases dotted <;> simp [text, operators, List.count_append, hword, hdot, hgap, hliteral]
  | _ =>
    simp only [text, operators, List.count_append, hword, hdigits, hdot, hgap, hliteral,
      List.count_nil, Nat.zero_add, Nat.add_zero]

theorem mem_text_iff {x : Char} (hw : isWord x = false) (hb : isBlank x = false) (hp : x ≠ '.') :
    x ∈ w.text ↔ x ∈ w.operators := by
  rw [← List.count_pos_iff, ← List.count_pos_iff, w.count_text hw hb hp]

theorem amp_mem_text_iff : '&' ∈ w.text ↔ '&' ∈ w.operators :=
  mem_text_iff (by decide) (by decide) (by decide)

theorem less_mem_of_le (h : le <:+: w.text) : '<' ∈ w.operators :=
  (mem_text_iff (by decide) (by decide) (by decide)).1 (h.subset (by simp [le]))

theorem two_le_count_of_eqEq (h : eqEq <:+: w.text) : 2 ≤ w.operators.count '=' := by
  rw [← w.count_text (by decide) (by decide) (by decide)]
  exact h.count_le '='

theorem infix_around (u rest op : List Char) (g : Gap) : op <:+: u ++ g.around op ++ rest :=
  ⟨u ++ g.before, g.after ++ rest, by simp [Gap.around]⟩

theorem not_bareLess_lowerBound (min : Literal) (g : Gap) (stat : Word) :
    ¬ BareLess (lowerBound min g stat).text := by
  rintro ⟨before, after, h, hne⟩
  have hmin : '<' ∉ min.text := Literal.not_mem_text (by decide) (by decide)
  have hstat : '<' ∉ stat.chars := isRun_not_mem stat.isRun (by decide)
  have hbefore : '<' ∉ g.before := fun hm ↦ by cases g.allBlank_before _ hm
  have hafter : '<' ∉ g.after := fun hm ↦ by cases g.allBlank_after _ hm
  have htext : (lowerBound min g stat).text =
      (min.text ++ g.before) ++ '<' :: ('=' :: (g.after ++ (scoreDot ++ stat.chars))) := by
    simp [text, Gap.around, le]
  rw [htext, List.append_cons_inj_of_notMem (by simp [hmin, hbefore])
    (by simp [hafter, hstat, scoreDot])] at h
  obtain ⟨-, -, rfl⟩ := h
  exact hne rfl

theorem bareLess_range (min : Literal) (g : Gap) (stat : Word) (g' : Gap) (max : Literal) :
    BareLess (range min g stat g' max).text := by
  refine ⟨min.text ++ g.around le ++ scoreDot ++ stat.chars ++ g'.before, g'.after ++ max.text,
    by simp [text, Gap.around], fun h ↦ ?_⟩
  cases hafter : g'.after with
  | nil =>
    rw [hafter, List.nil_append, ← List.append_nil max.text] at h
    cases max.of_mem_head? h
  | cons x after =>
    have hx := g'.allBlank_after x (by simp [hafter])
    rw [hafter, List.cons_append, List.head?_cons, Option.some.injEq] at h
    rw [h] at hx
    cases hx

/-- No rule but that of its form reads a clause, except for the equality rule on a bit equality. -/
theorem form_of_reads (h : Reads f w.text c) :
    f = w.form ∨ w.form = .bitEquality ∧ f = .equality := by
  -- the tests of a rule ask for operators, and a clause has none but those of its form
  generalize htext : w.text = t at h
  cases h with
  | bitTest hand heq =>
    rw [← htext, amp_mem_text_iff] at hand
    cases w <;> simp [operators, eqEq, le] at hand
    · exact .inl rfl
    · rw [← htext] at heq
      exact absurd (infix_around _ _ _ _) heq
  | bitEquality hand heq =>
    rw [← htext, amp_mem_text_iff] at hand
    rw [← htext] at heq
    have hcount := two_le_count_of_eqEq heq
    cases w <;> simp [operators, eqEq, le] at hand hcount
    exact .inl rfl
  | range hle hless =>
    rw [← htext] at hle hless
    have hmem := less_mem_of_le hle
    cases w <;> simp [operators, eqEq, le] at hmem
    · exact .inl rfl
    · exact absurd hless (not_bareLess_lowerBound _ _ _)
  | lowerBound hle hless =>
    rw [← htext] at hle hless
    have hmem := less_mem_of_le hle
    cases w <;> simp [operators, eqEq, le] at hmem
    · exact absurd (bareLess_range _ _ _ _ _) hless
    · exact .inl rfl
  | equality heq =>
    rw [← htext] at heq
    have hcount := two_le_count_of_eqEq heq
    cases w <;> simp [operators, eqEq, le] at hcount
    · exact .inr ⟨rfl, rfl⟩
    · exact .inl rfl
  | @flag stat hs =>
    have hflag : ∀ x, isWord x = false → isBlank x = false → x ≠ '.' → x ∉ w.operators := by
      intro x hw hb hp hm
      rw [← mem_text_iff hw hb hp, htext, List.mem_append] at hm
      rcases hm with hm | hm
      · exact not_mem_scoreDot hw hp hm
      · exact isRun_not_mem hs hw hm
    have hamp := hflag '&' (by decide) (by decide) (by decide)
    have heq := hflag '=' (by decide) (by decide) (by decide)
    cases w <;> simp [operators, eqEq, le] at hamp heq
    exact .inl rfl

theorem bitTestText (stat : Word) (g : Gap) (mask : Digits) :
    BitTestText (stat.chars, mask.chars) (bitTest stat g mask).text :=
  ⟨_, rfl, stat.isRun, g.spaced _, mask.isRun⟩

theorem lowerBoundText (min : Literal) (g : Gap) (stat : Word) :
    LowerBoundText (min.text, stat.chars) (lowerBound min g stat).text :=
  ⟨_, rfl, min.isNumeral, g.spaced _, stat.isRun⟩

theorem reads_bitTest_iff (stat : Word) (g : Gap) (mask : Digits) :
    Reads .bitTest (bitTest stat g mask).text c ↔
      mask.value < 0x100000000 ∧ c = (bitTest stat g mask).condition := by
  have hl := recognises_bitTest.leftmost_of_form (bitTestText stat g mask)
  constructor
  · intro h
    cases h with
    | bitTest _ _ h hm =>
      obtain ⟨rfl, rfl⟩ := Prod.mk.inj (recognises_bitTest.leftmost_unique h hl)
      exact ⟨hm, rfl⟩
  · rintro ⟨hm, rfl⟩
    refine .bitTest (by simp [text, Gap.around]) (fun h ↦ ?_) hl hm
    have := two_le_count_of_eqEq h
    simp [operators] at this

theorem reads_bitEquality_iff (stat : Word) (g : Gap) (mask : Digits) (g' : Gap) (equals : Digits) :
    Reads .bitEquality (bitEquality stat g mask g' equals).text c ↔
      (mask.value < 0x100000000 ∧ equals.value < 0x100000000) ∧
        c = (bitEquality stat g mask g' equals).condition := by
  have hl : Leftmost BitEqualityText (bitEquality stat g mask g' equals).text
      (stat.chars, mask.chars, equals.chars) :=
    recognises_bitEquality.leftmost_of_form
      ⟨_, _, rfl, bitTestText stat g mask, g'.spaced _, equals.isRun⟩
  constructor
  · intro h
    cases h with
    | bitEquality _ _ h hm he =>
      obtain ⟨rfl, hme⟩ := Prod.mk.inj (recognises_bitEquality.leftmost_unique h hl)
      obtain ⟨rfl, rfl⟩ := Prod.mk.inj hme
      exact ⟨⟨hm, he⟩, rfl⟩
  · rintro ⟨⟨hm, he⟩, rfl⟩
    exact .bitEquality (by simp [text, Gap.around]) (infix_around _ _ _ _) hl hm he

theorem reads_range_iff (min : Literal) (g : Gap) (stat : Word) (g' : Gap) (max : Literal) :
    Reads .range (range min g stat g' max).text c ↔
      (min.InRange ∧ max.InRange) ∧ c = (range min g stat g' max).condition := by
  have hl : Leftmost RangeText (range min g stat g' max).text (min.text, stat.chars, max.text) :=
    recognises_range.leftmost_of_form
      ⟨_, _, rfl, lowerBoundText min g stat, g'.spaced _, max.isNumeral⟩
  constructor
  · intro h
    cases h with
    | range _ _ h hlo hhi =>
      obtain ⟨rfl, hsm⟩ := Prod.mk.inj (recognises_range.leftmost_unique h hl)
      obtain ⟨rfl, rfl⟩ := Prod.mk.inj hsm
      obtain ⟨hmin, rfl⟩ := Literal.ofLiteral?_text.1 hlo
      obtain ⟨hmax, rfl⟩ := Literal.ofLiteral?_text.1 hhi
      exact ⟨⟨hmin, hmax⟩, rfl⟩
  · rintro ⟨⟨hmin, hmax⟩, rfl⟩
    have hle :=
      infix_around min.text (scoreDot ++ (stat.chars ++ (g'.around ['<'] ++ max.text))) le g
    exact .range (by simpa [text] using hle) (bareLess_range _ _ _ _ _) hl
      (Literal.ofLiteral?_text.2 ⟨hmin, rfl⟩) (Literal.ofLiteral?_text.2 ⟨hmax, rfl⟩)

theorem reads_lowerBound_iff (min : Literal) (g : Gap) (stat : Word) :
    Reads .lowerBound (lowerBound min g stat).text c ↔
      min.InRange ∧ c = (lowerBound min g stat).condition := by
  have hl := recognises_lowerBound.leftmost_of_form (lowerBoundText min g stat)
  constructor
  · intro h
    cases h with
    | lowerBound _ _ h hlo =>
      obtain ⟨rfl, rfl⟩ := Prod.mk.inj (recognises_lowerBound.leftmost_unique h hl)
      obtain ⟨hmin, rfl⟩ := Literal.ofLiteral?_text.1 hlo
      exact ⟨hmin, rfl⟩
  · rintro ⟨hmin, rfl⟩
    have hle := infix_around min.text (scoreDot ++ stat.chars) le g
    exact .lowerBound (by simpa [text] using hle) (not_bareLess_lowerBound _ _ _) hl
      (Literal.ofLiteral?_text.2 ⟨hmin, rfl⟩)

theorem reads_equality_iff (dotted : Bool) (stat : Word) (g : Gap) (value : Literal) :
    Reads .equality (equality dotted stat g value).text c ↔
      value.InRange ∧ c = (equality dotted stat g value).condition := by
  have hl : Leftmost EqualityText (equality dotted stat g value).text (stat.chars, value.text) :=
    recognises_equality.leftmost_of_form
      ⟨_, _, by cases dotted <;> simp, rfl, stat.isRun, g.spaced _, value.isNumeral⟩
  constructor
  · intro h
    cases h with
    | equality _ h hv =>
      obtain ⟨rfl, rfl⟩ := Prod.mk.inj (recognises_equality.leftmost_unique h hl)
      obtain ⟨hvalue, rfl⟩ := Literal.ofLiteral?_text.1 hv
      exact ⟨hvalue, rfl⟩
  · rintro ⟨hvalue, rfl⟩
    exact .equality (infix_around _ _ _ _) hl (Literal.ofLiteral?_text.2 ⟨hvalue, rfl⟩)

theorem reads_flag_iff (stat : Word) :
    Reads .flag (flag stat).text c ↔ c = (flag stat).condition := by
  constructor
  · intro h
    generalize htext : (flag stat).text = t at h
    cases h with
    | flag =>
      rw [← List.append_cancel_left htext]
      rfl
  · rintro rfl
    exact .flag stat.isRun

theorem reads_form_iff : Reads w.form w.text c ↔ w.InRange ∧ c = w.condition := by
  cases w with
  | bitTest stat g mask => exact reads_bitTest_iff stat g mask
  | bitEquality stat g mask g' equals => exact reads_bitEquality_iff stat g mask g' equals
  | range min g stat g' max => exact reads_range_iff min g stat g' max
  | lowerBound min g stat => exact reads_lowerBound_iff min g stat
  | equality dotted stat g value => exact reads_equality_iff dotted stat g value
  | flag stat => exact (reads_flag_iff stat).trans (true_and _).symm.to_iff

theorem equalityAt_eq_none_of_amp {s rest : List Char} (hamp : '&' ∈ s) (heq : '=' ∉ s) :
    equalityAt (s ++ rest) = none := by
  rw [Option.eq_none_iff_forall_ne_some]
  rintro ⟨⟨stat, value⟩, r⟩ h
  obtain ⟨t, ht, dot, op, hdot, rfl, hs, ⟨b₁, b₂, rfl, hb₁, -⟩, -⟩ := recognises_equality.sound h
  have hfront : '&' ∉ dot ++ stat ++ b₁ := by
    have h₁ : '&' ∉ dot := by rcases hdot with rfl | rfl <;> decide
    have h₂ : '&' ∉ stat := isRun_not_mem hs (by decide)
    have h₃ : '&' ∉ b₁ := fun hm ↦ by cases hb₁ _ hm
    simp [h₁, h₂, h₃]
  have hsplit : s ++ rest = (dot ++ stat ++ b₁) ++ '=' :: ('=' :: (b₂ ++ value ++ r)) := by
    simpa [eqEq] using ht
  rw [List.append_eq_append_iff] at hsplit
  rcases hsplit with ⟨u, hu, -⟩ | ⟨u, rfl, hu⟩
  · exact hfront (by rw [hu]; simp [hamp])
  · cases u with
    | nil => exact hfront (by simpa using hamp)
    | cons x u =>
      rw [(List.cons.inj hu).1] at heq
      simp at heq

theorem equalityAt_eq_none_of_blank {x : Char} {cs : List Char} (hx : isBlank x = true) :
    equalityAt (x :: cs) = none := by
  rw [Option.eq_none_iff_forall_ne_some]
  rintro ⟨⟨stat, value⟩, r⟩ h
  obtain ⟨t, ht, dot, op, hdot, rfl, hs, -⟩ := recognises_equality.sound h
  rcases hdot with rfl | rfl
  · obtain ⟨y, stat, rfl⟩ := List.exists_cons_of_ne_nil hs.1
    have hy := hs.2 y (by simp)
    rw [← (List.cons.inj ht).1, isWord_of_isBlank hx] at hy
    cases hy
  · rw [(List.cons.inj ht).1] at hx
    cases hx

theorem leftmost_equality_bitEquality (stat : Word) (g : Gap) (mask : Digits) (g' : Gap)
    (equals : Digits) : Leftmost EqualityText (bitEquality stat g mask g' equals).text
      (mask.chars, equals.chars) := by
  refine recognises_equality.search_iff.1 ⟨[], ?_⟩
  have htext : (bitEquality stat g mask g' equals).text =
      (scoreDot ++ stat.chars ++ g.before ++ '&' :: g.after) ++
        ([] ++ mask.chars ++ g'.around eqEq ++ equals.chars) := by
    simp [text, Gap.around]
  rw [htext, search_append]
  · refine search_of_eq_some (recognises_equality.exact ⟨[], _, .inl rfl, rfl, ?_, g'.spaced _, ?_⟩)
    · exact ⟨mask.isRun.1, fun c hc ↦ isWord_of_isDigit (mask.isRun.2 c hc)⟩
    · exact .inl equals.isRun
  · intro s u hs hu
    by_cases hamp : '&' ∈ s
    · refine equalityAt_eq_none_of_amp hamp fun heq ↦ ?_
      have hmem : '=' ∈ scoreDot ++ stat.chars ++ g.before ++ '&' :: g.after := by
        rw [hu]
        exact List.mem_append_right u heq
      have h₁ : '=' ∉ stat.chars := isRun_not_mem stat.isRun (by decide)
      have h₂ : '=' ∉ g.before := fun hm ↦ by cases g.allBlank_before _ hm
      have h₃ : '=' ∉ g.after := fun hm ↦ by cases g.allBlank_after _ hm
      simp [h₁, h₂, h₃, scoreDot] at hmem
    · -- without the `&` only blanks behind it are left
      rw [List.append_eq_append_iff] at hu
      rcases hu with ⟨v, hv, hv'⟩ | ⟨v, -, hv⟩
      · cases v with
        | nil => simp [← show '&' :: g.after = s from hv'] at hamp
        | cons x v =>
          obtain ⟨y, s, rfl⟩ := List.exists_cons_of_ne_nil hs
          exact equalityAt_eq_none_of_blank (g.allBlank_after y (by simp [(List.cons.inj hv').2]))
      · exact absurd (by simp [hv]) hamp

theorem reads_equality_bitEquality_iff (stat : Word) (g : Gap) (mask : Digits) (g' : Gap)
    (equals : Digits) : Reads .equality (bitEquality stat g mask g' equals).text c ↔
      equals.value < 0x8000000000000000 ∧
        c = .compare (.ofList mask.chars) .equal (.int (.ofNat equals.value)) := by
  have hl := leftmost_equality_bitEquality stat g mask g' equals
  have hv (v : Number) : Number.ofLiteral? equals.chars = some v ↔
      equals.value < 0x8000000000000000 ∧ v = .int (.ofNat equals.value) :=
    Literal.ofLiteral?_text (l := .whole equals)
  constructor
  · intro h
    cases h with
    | equality _ h hvalue =>
      obtain ⟨rfl, rfl⟩ := Prod.mk.inj (recognises_equality.leftmost_unique h hl)
      obtain ⟨hlt, rfl⟩ := (hv _).1 hvalue
      exact ⟨hlt, rfl⟩
  · rintro ⟨hlt, rfl⟩
    exact .equality (infix_around _ _ _ _) hl ((hv _).2 ⟨hlt, rfl⟩)

/-- A bit equality whose value still fits in 64 bits. Out of range it is taken for an equality. -/
def FallsThrough : Written → Prop
  | bitEquality _ _ _ _ equals => equals.value < 0x8000000000000000
  | _ => False

/-- The condition that the equality rule makes of a bit equality: its mask is taken for the stat. -/
def remnant : Written → Option Condition
  | bitEquality _ _ mask _ equals =>
    some (.compare (.ofList mask.chars) .equal (.int (.ofNat equals.value)))
  | _ => none

theorem body_text (w : Written) : body (.ofList w.text) = w.text := by
  have hp : ¬ (w.text.head? = some '(' ∧ w.text.getLast? = some ')') := by
    rintro ⟨h, -⟩
    cases isWord_of_mem_head? h
  rw [body, String.toList_ofList, trim_text, unwrap_eq_self hp]

theorem classify_of_inRange (h : w.InRange) :
    classify (.ofList w.text) = some (w.form, w.condition) := by
  rw [classify, body_text, firstReading_eq_some_iff]
  refine ⟨reads_form_iff.2 ⟨h, rfl⟩, fun g d hlt hg ↦ ?_⟩
  rcases form_of_reads hg with rfl | ⟨hw, rfl⟩
  · omega
  · rw [hw] at hlt
    simp [Form.rank] at hlt

theorem classify_of_fallsThrough (h : ¬ w.InRange) (hf : w.FallsThrough) :
    classify (.ofList w.text) = w.remnant.map (.equality, ·) := by
  cases w with
  | bitEquality stat g mask g' equals =>
    rw [classify, body_text, remnant, Option.map_some, firstReading_eq_some_iff]
    refine ⟨(reads_equality_bitEquality_iff ..).2 ⟨hf, rfl⟩, fun f d hlt hr ↦ ?_⟩
    rcases form_of_reads hr with rfl | ⟨-, rfl⟩
    · exact h (reads_form_iff.1 hr).1
    · omega
  | _ => exact hf.elim

theorem classify_eq_none (h : ¬ w.InRange) (hf : ¬ w.FallsThrough) :
    classify (.ofList w.text) = none := by
  rw [classify, body_text, firstReading_eq_none_iff]
  intro f d hr
  rcases form_of_reads hr with rfl | ⟨hw, rfl⟩
  · exact h (reads_form_iff.1 hr).1
  · cases w with
    | bitEquality => exact hf ((reads_equality_bitEquality_iff ..).1 hr).1
    | _ => cases hw

end Written

end Achievements.Clause
