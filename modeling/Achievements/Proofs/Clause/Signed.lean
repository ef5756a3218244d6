import Achievements.Proofs.Clause.Recognition
import Achievements.Proofs.Clause.Remnants

namespace Achievements.Clause

open Text

structure Signed where
  minus : Bool
  literal : Literal

namespace Signed

def text (l : Signed) : List Char := if l.minus then '-' :: l.literal.text else l.literal.text

inductive Denotes : Signed → Number → Prop
  | whole {minus : Bool} {ds : Digits} {i : Int64} :
      i.toInt = (if minus then -(ds.value : Int) else ds.value) →
      Denotes ⟨minus, .whole ds⟩ (.int i)
  | point {minus : Bool} {w f : Digits} {x : Finite64} :
      Decimal.toBinary64 minus ⟨Decimal.ofDigits (w.chars ++ f.chars), -f.chars.length⟩ = .fin x →
      Denotes ⟨minus, .point w f⟩ (.float (.fin x))

theorem denotes_number {l : Literal} (h : l.InRange) : Denotes ⟨false, l⟩ l.number := by
  cases l with
  | whole ds =>
    apply Denotes.whole
    exact Int64.toInt_ofNat_of_lt h
  | point w f =>
    have hfinite : (Literal.nearest w f).isFinite = true := h
    rw [Literal.number]
    cases hx : Literal.nearest w f with
    | fin x => exact .point hx
    | nan | inf => simp [hx, Binary64.isFinite] at hfinite

theorem text_of_minus {l : Signed} (h : l.minus = true) : l.text = '-' :: l.literal.text :=
  if_pos h

theorem text_of_plain {l : Signed} (h : l.minus = false) : l.text = l.literal.text :=
  if_neg (by simp [h])

theorem count_text (l : Signed) {x : Char} (h : x ≠ '-') :
    l.text.count x = l.literal.text.count x := by
  cases hm : l.minus with
  | true => rw [text_of_minus hm, List.count_cons_of_ne h.symm]
  | false => rw [text_of_plain hm]

theorem of_mem_head? (l : Signed) {rest : List Char} {x : Char} (h : x ∈ (l.text ++ rest).head?) :
    x = '-' ∨ isWord x = true := by
  cases hm : l.minus with
  | true =>
    rw [text_of_minus hm] at h
    exact .inl (Option.some.inj h).symm
  | false =>
    rw [text_of_plain hm] at h
    exact .inr (isWord_of_isDigit (l.literal.of_mem_head? h))

theorem of_mem_getLast? (l : Signed) {u : List Char} {x : Char} (h : x ∈ (u ++ l.text).getLast?) :
    isWord x = true := by
  cases hm : l.minus with
  | true =>
    rw [text_of_minus hm, List.append_cons] at h
    exact isWord_of_isDigit (l.literal.of_mem_getLast? h)
  | false =>
    rw [text_of_plain hm] at h
    exact isWord_of_isDigit (l.literal.of_mem_getLast? h)

end Signed

/-- A comparison with a signed literal on each side where it may have one. -/
inductive SignedWritten
  | lowerBound (min : Signed) (le : Gap) (stat : Word)
  | range (min : Signed) (le : Gap) (stat : Word) (less : Gap) (max : Signed)
  | equality (dotted : Bool) (stat : Word) (eq : Gap) (value : Signed)

namespace SignedWritten

def text : SignedWritten → List Char
  | lowerBound min le stat => min.text ++ le.around Clause.le ++ scoreDot ++ stat.chars
  | range min le stat less max =>
    min.text ++ le.around Clause.le ++ scoreDot ++ stat.chars ++ less.around ['<'] ++ max.text
  | equality dotted stat eq value =>
    (if dotted then scoreDot else []) ++ stat.chars ++ eq.around eqEq ++ value.text

def literals : SignedWritten → List Signed
  | lowerBound min _ _ => [min]
  | range min _ _ _ max => [min, max]
  | equality _ _ _ value => [value]

def plain : SignedWritten → Written
  | lowerBound min le stat => .lowerBound min.literal le stat
  | range min le stat less max => .range min.literal le stat less max.literal
  | equality dotted stat eq value => .equality dotted stat eq value.literal

/-- The clause without the sign in front of it, if there is one. -/
def front : SignedWritten → SignedWritten
  | lowerBound min le stat => lowerBound ⟨false, min.literal⟩ le stat
  | range min le stat less max => range ⟨false, min.literal⟩ le stat less max
  | equality dotted stat eq value => equality dotted stat eq value

/-- Whether a sign stands behind an operator. -/
def inner : SignedWritten → Bool
  | lowerBound .. => false
  | range _ _ _ _ max => max.minus
  | equality _ _ _ value => value.minus

variable {s : SignedWritten} {f : Form} {c : Condition}

theorem count_text (s : SignedWritten) {x : Char} (h : x ≠ '-') :
    s.text.count x = s.plain.text.count x := by
  cases s <;> simp only [text, plain, Written.text, List.count_append, Signed.count_text _ h]

theorem mem_text_iff {x : Char} (h : x ≠ '-') : x ∈ s.text ↔ x ∈ s.plain.text := by
  rw [← List.count_pos_iff, ← List.count_pos_iff, s.count_text h]

theorem eq_of_append_cons {a : Char} {x y x' y' : List Char} (h : x ++ a :: y = x' ++ a :: y')
    (hy : a ∉ y) (hy' : a ∉ y') : y = y' := by
  rw [List.append_eq_append_iff] at h
  rcases h with ⟨z, -, hz⟩ | ⟨z, -, hz⟩
  · cases z with
    | nil => exact (List.cons.inj hz).2
    | cons b z => exact absurd (by simp [(List.cons.inj hz).2]) hy
  · cases z with
    | nil => exact (List.cons.inj hz).2.symm
    | cons b z => exact absurd (by simp [(List.cons.inj hz).2]) hy'

theorem blank_numeral_ne {b g n l after : List Char} (hb : AllBlank b) (hg : AllBlank g)
    (hn : IsNumeral n) : b ++ (n ++ after) ≠ g ++ '-' :: l := by
  intro h
  have hminus : Stops isBlank ('-' :: l) := stops_cons.2 (by decide)
  have hskip := congrArg skipBlanks h
  rw [skipBlanks_append hb hn.stops_isBlank, skipBlanks_append hg hminus] at hskip
  obtain ⟨d, m, rfl, hdigit⟩ := head_digit_of_isNumeral hn
  rw [(List.cons.inj hskip).1] at hdigit
  cases hdigit

/-- No numeral stands behind the last place of an operator if a sign stands there. -/
theorem not_numeral_behind {a : Char} {cs x y b g n after : List Char} {l : Literal}
    (ha : a = '<' ∨ a = '=') (hcount : cs.count a ≤ x.count a + 1)
    (hx : cs = x ++ a :: (b ++ (n ++ after))) (hb : AllBlank b) (hn : IsNumeral n)
    (hy : cs = y ++ a :: (g ++ '-' :: l.text)) (hg : AllBlank g) : False := by
  have hbehind : a ∉ b ++ (n ++ after) := by
    rw [hx, List.count_append, List.count_cons_self] at hcount
    rw [← List.count_eq_zero]
    omega
  have hsigned : a ∉ g ++ '-' :: l.text := by
    intro hmem
    rcases List.mem_append.1 hmem with hmem | hmem
    · have hblank := hg a hmem
      rcases ha with rfl | rfl <;> cases hblank
    · rcases List.mem_cons.1 hmem with rfl | hmem
      · simp at ha
      · refine Literal.not_mem_text ?_ ?_ hmem
        · rcases ha with rfl | rfl <;> decide
        · rcases ha with rfl | rfl <;> decide
  exact blank_numeral_ne hb hg hn (eq_of_append_cons (hx.symm.trans hy) hbehind hsigned)

theorem count_operators (s : SignedWritten) {x : Char} (hx : x ∈ ['&', '<', '=']) :
    s.text.count x = s.plain.operators.count x := by
  simp only [List.mem_cons, List.not_mem_nil, or_false] at hx
  have hother : isWord x = false ∧ isBlank x = false ∧ x ≠ '.' ∧ x ≠ '-' := by
    rcases hx with rfl | rfl | rfl <;> decide
  obtain ⟨hw, hb, hp, hm⟩ := hother
  rw [s.count_text hm, s.plain.count_text hw hb hp]

theorem not_infix_of_count (s : SignedWritten) {x : Char} {op : List Char}
    (hx : x ∈ ['&', '<', '=']) (hlt : s.plain.operators.count x < op.count x) :
    ¬ op <:+: s.text := by
  intro h
  have hle := h.count_le x
  rw [s.count_operators hx] at hle
  omega

theorem not_leftmost_range {min : Signed} {g : Gap} {stat : Word} {g' : Gap} {max : Signed}
    (hmax : max.minus = true) {a : List Char × List Char × List Char} :
    ¬ Leftmost RangeText (range min g stat g' max).text a := by
  intro h
  obtain ⟨t, ht, before, after, htext⟩ := h.exists_occurrence
  obtain ⟨u, op, rfl, ⟨op', rfl, -, ⟨b₁, b₂, rfl, -⟩, -⟩, ⟨b₁', b₂', rfl, -, hb⟩, hn⟩ := ht
  have hcount := (range min g stat g' max).count_operators (x := '<') (by simp)
  have hfound : (range min g stat g' max).text =
      (before ++ a.1 ++ b₁ ++ le ++ b₂ ++ scoreDot ++ a.2.1 ++ b₁') ++
        '<' :: (b₂' ++ (a.2.2 ++ after)) := by
    simp [← htext]
  have hsigned : (range min g stat g' max).text =
      (min.text ++ g.around le ++ scoreDot ++ stat.chars ++ g'.before) ++
        '<' :: (g'.after ++ '-' :: max.literal.text) := by
    simp [text, Gap.around, Signed.text_of_minus hmax]
  -- one `<` is spent on the lower bound, so the other is the last one
  have hle : 1 ≤ (before ++ a.1 ++ b₁ ++ le ++ b₂ ++ scoreDot ++ a.2.1 ++ b₁').count '<' := by
    rw [List.one_le_count_iff]
    simp [le]
  refine not_numeral_behind (.inl rfl) ?_ hfound hb hn hsigned g'.allBlank_after
  have htwo : (range min g stat g' max).plain.operators.count '<' = 2 := rfl
  omega

theorem not_leftmost_equality {dotted : Bool} {stat : Word} {g : Gap} {value : Signed}
    (hvalue : value.minus = true) {a : List Char × List Char} :
    ¬ Leftmost EqualityText (equality dotted stat g value).text a := by
  intro h
  obtain ⟨t, ht, before, after, htext⟩ := h.exists_occurrence
  obtain ⟨dot, op, -, rfl, -, ⟨b₁, b₂, rfl, -, hb⟩, hn⟩ := ht
  have hcount := (equality dotted stat g value).count_operators (x := '=') (by simp)
  have hfound : (equality dotted stat g value).text =
      (before ++ dot ++ a.1 ++ b₁ ++ ['=']) ++ '=' :: (b₂ ++ (a.2 ++ after)) := by
    simp [← htext, eqEq]
  have hsigned : (equality dotted stat g value).text =
      ((if dotted then scoreDot else []) ++ stat.chars ++ g.before ++ ['=']) ++
        '=' :: (g.after ++ '-' :: value.literal.text) := by
    simp [text, Gap.around, Signed.text_of_minus hvalue, eqEq]
  refine not_numeral_behind (.inr rfl) ?_ hfound hb hn hsigned g.allBlank_after
  have htwo : (equality dotted stat g value).plain.operators.count '=' = 2 := rfl
  rw [List.count_append, List.count_singleton_self]
  omega

theorem amp_not_mem_text (s : SignedWritten) : '&' ∉ s.text := by
  rw [← List.count_eq_zero, s.count_operators (by simp)]
  cases s <;> rfl

theorem not_le_infix_equality {dotted : Bool} {stat : Word} {g : Gap} {value : Signed} :
    ¬ le <:+: (equality dotted stat g value).text := by
  apply not_infix_of_count (x := '<') _ (by simp)
  simp [plain, Written.operators, le, eqEq]

theorem not_eqEq_infix_range {min : Signed} {g : Gap} {stat : Word} {g' : Gap} {max : Signed} :
    ¬ eqEq <:+: (range min g stat g' max).text := by
  apply not_infix_of_count (x := '=') _ (by simp)
  simp [plain, Written.operators, le, eqEq]

theorem bareLess_range {min : Signed} {g : Gap} {stat : Word} {g' : Gap} {max : Signed}
    (hmax : max.minus = true) : BareLess (range min g stat g' max).text := by
  refine ⟨min.text ++ g.around le ++ scoreDot ++ stat.chars ++ g'.before,
    g'.after ++ '-' :: max.literal.text, ?_, fun heq ↦ ?_⟩
  · simp [text, Gap.around, Signed.text_of_minus hmax]
  · cases hafter : g'.after with
    | nil => simp [hafter] at heq
    | cons x after =>
      have hx := g'.allBlank_after x (by simp [hafter])
      rw [hafter, List.cons_append, List.head?_cons, Option.some.injEq] at heq
      rw [heq] at hx
      cases hx

/-- No rule reads a clause with a sign behind an operator. -/
theorem not_reads_of_inner (hi : s.inner = true) : ¬ Reads f s.text c := by
  intro h
  generalize htext : s.text = t at h
  cases h with
  | bitTest hamp | bitEquality hamp =>
    rw [← htext] at hamp
    exact s.amp_not_mem_text hamp
  | range hle _ hl =>
    rw [← htext] at hle hl
    cases s with
    | lowerBound => cases hi
    | range => exact not_leftmost_range hi hl
    | equality => exact not_le_infix_equality hle
  | lowerBound hle hless =>
    rw [← htext] at hle hless
    cases s with
    | lowerBound => cases hi
    | range => exact hless (bareLess_range hi)
    | equality => exact not_le_infix_equality hle
  | equality heq hl =>
    rw [← htext] at heq hl
    cases s with
    | lowerBound => cases hi
    | range => exact not_eqEq_infix_range heq
    | equality => exact not_leftmost_equality hi hl
  | flag hstat =>
    have hmem : '=' ∈ s.text := by
      rw [mem_text_iff (by decide), Written.mem_text_iff (by decide) (by decide) (by decide)]
      cases s <;> simp [plain, Written.operators, le, eqEq]
    rw [htext, List.mem_append] at hmem
    rcases hmem with hmem | hmem
    · exact absurd hmem (by decide)
    · exact isRun_not_mem hstat (by decide) hmem

def sign : SignedWritten → List Char
  | lowerBound min .. | range min .. => if min.minus then ['-'] else []
  | equality .. => []

theorem text_eq_sign_append (h : s.inner = false) : s.text = s.sign ++ s.plain.text := by
  have hmin (l : Signed) : l.text = (if l.minus then ['-'] else []) ++ l.literal.text := by
    cases hm : l.minus with
    | true => exact Signed.text_of_minus hm
    | false => exact Signed.text_of_plain hm
  cases s with
  | lowerBound min => simp [text, sign, plain, Written.text, hmin min]
  | range min g stat g' max =>
    have hmax : max.minus = false := h
    simp [text, sign, plain, Written.text, hmin min, Signed.text_of_plain hmax]
  | equality dotted stat g value =>
    have hvalue : value.minus = false := h
    simp [text, sign, plain, Written.text, Signed.text_of_plain hvalue]

theorem form_of_reads_plain (h : Reads f s.plain.text c) : f = s.plain.form := by
  rcases Written.form_of_reads h with hf | ⟨hf, -⟩
  · exact hf
  · cases s <;> cases hf

theorem firstReading_of_not_inner (h : s.inner = false) :
    firstReading rules s.text = firstReading rules s.plain.text := by
  have hsign : s.sign = [] ∨ s.sign = ['-'] := by
    cases s with
    | lowerBound min | range min => cases hm : min.minus <;> simp [sign, hm]
    | equality => exact .inl rfl
  rw [text_eq_sign_append h]
  rcases hsign with hsign | hsign
  · rw [hsign, List.nil_append]
  · have hminus : Inert ['-'] := List.forall_mem_singleton.2 (by decide)
    have hnil : Inert [] := List.forall_mem_nil _
    have haround := firstReading_around (t := s.plain.text) hminus hnil (.inl (by simp))
    rw [List.append_nil] at haround
    rw [hsign, haround]
    cases hfirst : firstReading rules s.plain.text with
    | none => rfl
    | some x =>
      have hform := form_of_reads_plain (firstReading_eq_some_iff.1 hfirst).1
      have hflag : s.plain.form ≠ .flag := by cases s <;> simp [plain, Written.form]
      rw [Option.filter_some, if_pos (by simpa [hform] using hflag)]

theorem body_text (s : SignedWritten) : body (.ofList s.text) = s.text := by
  have hhead : ∀ x ∈ s.text.head?, x = '-' ∨ isWord x = true := by
    intro x hx
    cases s with
    | lowerBound min | range min =>
      simp only [text, List.append_assoc] at hx
      exact min.of_mem_head? hx
    | equality dotted stat =>
      simp only [text, List.append_assoc] at hx
      cases dotted with
      | true =>
        obtain rfl : 's' = x := Option.some.inj hx
        exact .inr (by decide)
      | false => exact .inr (of_mem_head? stat hx)
  have hlast : ∀ x ∈ s.text.getLast?, isWord x = true := by
    intro x hx
    cases s with
    | lowerBound min g stat => exact of_mem_getLast? stat hx
    | range min g stat g' max => exact max.of_mem_getLast? hx
    | equality dotted stat g value => exact value.of_mem_getLast? hx
  have hspace : ∀ x ∈ s.text.head?, isSpace x = false := by
    intro x hx
    rcases hhead x hx with rfl | hword
    · decide
    · exact isSpace_of_isWord hword
  have hparen : ¬ (s.text.head? = some '(' ∧ s.text.getLast? = some ')') := by
    intro h
    cases hlast ')' h.2
  rw [body, String.toList_ofList, trim_eq_self hspace fun x hx ↦ isSpace_of_isWord (hlast x hx),
    unwrap_eq_self hparen]

theorem classify_text (s : SignedWritten) : classify (.ofList s.text) =
    if s.inner = false ∧ s.plain.InRange then some (s.plain.form, s.plain.condition) else none := by
  rw [classify, body_text]
  cases hinner : s.inner with
  | true =>
    rw [if_neg (by simp), firstReading_eq_none_iff]
    exact fun f c ↦ not_reads_of_inner hinner
  | false =>
    rw [firstReading_of_not_inner hinner]
    split
    · next h =>
      refine firstReading_eq_some_iff.2 ⟨Written.reads_form_iff.2 ⟨h.2, rfl⟩, fun g d hlt hg ↦ ?_⟩
      rw [form_of_reads_plain hg] at hlt
      omega
    · next h =>
      refine firstReading_eq_none_iff.2 fun f c hr ↦ h ⟨rfl, ?_⟩
      rw [form_of_reads_plain hr] at hr
      exact (Written.reads_form_iff.1 hr).1

theorem denotes_front (hinner : s.inner = false) (h : s.plain.InRange) :
    List.Forall₂ Signed.Denotes s.front.literals s.plain.condition.numbers := by
  have hplain (l : Signed) (hl : l.minus = false) : l = ⟨false, l.literal⟩ := by
    rw [← hl]
  cases s with
  | lowerBound min g stat => exact .cons (Signed.denotes_number h) .nil
  | range min g stat g' max =>
    refine .cons (Signed.denotes_number h.1) (.cons ?_ .nil)
    rw [hplain max hinner]
    exact Signed.denotes_number h.2
  | equality dotted stat g value =>
    refine .cons ?_ .nil
    rw [hplain value hinner]
    exact Signed.denotes_number h

end SignedWritten

/-- A comparison is recognised if no sign stands behind an operator and its literals are in range.
Then it is read in its own form, and each number is what is written, sign included, except that a
sign in front of the clause does not count. -/
theorem classify_signed (s : SignedWritten) :
    (∀ f c, classify (.ofList s.text) = some (f, c) →
      f = s.plain.form ∧ c = s.plain.condition ∧
        List.Forall₂ Signed.Denotes s.front.literals c.numbers) ∧
    (classify (.ofList s.text) = none ↔ s.inner = true ∨ ¬ s.plain.InRange) := by
  rw [s.classify_text]
  constructor
  · intro f c h
    split at h
    · next hread =>
      obtain ⟨rfl, rfl⟩ := Prod.mk.inj (Option.some.inj h)
      exact ⟨rfl, rfl, SignedWritten.denotes_front hread.1 hread.2⟩
    · cases h
  · split
    · next hread => simp [hread.1, hread.2]
    · next hread =>
      rw [not_and_or, Bool.not_eq_false] at hread
      simpa using hread

theorem reads_minus_five_as_five : ∃ s : SignedWritten,
    String.ofList s.text = "-5 <= score.combo" ∧
    classify "-5 <= score.combo" = some (.lowerBound, .compare "combo" .atLeast (.int 5)) ∧
    ¬ List.Forall₂ Signed.Denotes s.literals
      (Condition.numbers (.compare "combo" .atLeast (.int 5))) := by
  refine ⟨.lowerBound ⟨true, .whole ⟨['5'], by decide⟩⟩ ⟨[' '], [' '], by decide, by decide⟩
    ⟨['c', 'o', 'm', 'b', 'o'], by decide⟩, rfl, by decide +kernel, ?_⟩
  intro h
  cases h with
  | cons h =>
    cases h with
    | whole h => exact absurd h (by decide)

end Achievements.Clause
