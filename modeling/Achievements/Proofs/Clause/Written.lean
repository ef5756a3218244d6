import Mathlib.Data.List.Chain
import Achievements.Proofs.Clause.Classification
import Achievements.Proofs.Expression.Splitting

namespace Achievements

open Text

structure Text.Run (p : Char → Bool) where
  chars : List Char
  isRun : IsRun p chars

namespace Clause

abbrev Word : Type := Run isWord

abbrev Digits : Type := Run Char.isDigit

structure Gap where
  before : List Char
  after : List Char
  allBlank_before : AllBlank before
  allBlank_after : AllBlank after

def Gap.around (g : Gap) (op : List Char) : List Char := g.before ++ op ++ g.after

def Digits.value (ds : Digits) : Nat := Decimal.ofDigits ds.chars

inductive Literal
  | whole (digits : Digits)
  | point (whole frac : Digits)

namespace Literal

def text : Literal → List Char
  | whole ds => ds.chars
  | point w f => w.chars ++ '.' :: f.chars

def nearest (whole frac : Digits) : Binary64 :=
  Decimal.toBinary64 false ⟨Decimal.ofDigits (whole.chars ++ frac.chars), -frac.chars.length⟩

def InRange : Literal → Prop
  | whole ds => ds.value < 0x8000000000000000
  | point w f => (nearest w f).isFinite = true

def number : Literal → Number
  | whole ds => .int (.ofNat ds.value)
  | point w f => .float (nearest w f)

instance : (l : Literal) → Decidable l.InRange
  | whole ds => inferInstanceAs (Decidable (ds.value < 0x8000000000000000))
  | point w f => inferInstanceAs (Decidable ((nearest w f).isFinite = true))

end Literal

/-- A clause of one of the forms, with the blanks in it. -/
inductive Written
  | bitTest (stat : Word) (amp : Gap) (mask : Digits)
  | bitEquality (stat : Word) (amp : Gap) (mask : Digits) (eq : Gap) (equals : Digits)
  | range (min : Literal) (le : Gap) (stat : Word) (less : Gap) (max : Literal)
  | lowerBound (min : Literal) (le : Gap) (stat : Word)
  | equality (dotted : Bool) (stat : Word) (eq : Gap) (value : Literal)
  | flag (stat : Word)

namespace Written

def text : Written → List Char
  | bitTest stat amp mask => scoreDot ++ stat.chars ++ amp.around ['&'] ++ mask.chars
  | bitEquality stat amp mask eq equals =>
    scoreDot ++ stat.chars ++ amp.around ['&'] ++ mask.chars ++ eq.around eqEq ++ equals.chars
  | range min le stat less max =>
    min.text ++ le.around Clause.le ++ scoreDot ++ stat.chars ++ less.around ['<'] ++ max.text
  | lowerBound min le stat => min.text ++ le.around Clause.le ++ scoreDot ++ stat.chars
  | equality dotted stat eq value =>
    (if dotted then scoreDot else []) ++ stat.chars ++ eq.around eqEq ++ value.text
  | flag stat => scoreDot ++ stat.chars

def form : Written → Form
  | bitTest .. => .bitTest
  | bitEquality .. => .bitEquality
  | range .. => .range
  | lowerBound .. => .lowerBound
  | equality .. => .equality
  | flag .. => .flag

/-- Masks have at most 32 bits, values and bounds are 64-bit integers or finite doubles. -/
def InRange : Written → Prop
  | bitTest _ _ mask => mask.value < 0x100000000
  | bitEquality _ _ mask _ equals => mask.value < 0x100000000 ∧ equals.value < 0x100000000
  | range min _ _ _ max => min.InRange ∧ max.InRange
  | lowerBound min _ _ => min.InRange
  | equality _ _ _ value => value.InRange
  | flag _ => True

instance : (w : Written) → Decidable w.InRange
  | bitTest _ _ mask => inferInstanceAs (Decidable (mask.value < 0x100000000))
  | bitEquality _ _ mask _ equals =>
    inferInstanceAs (Decidable (mask.value < 0x100000000 ∧ equals.value < 0x100000000))
  | range min _ _ _ max => inferInstanceAs (Decidable (min.InRange ∧ max.InRange))
  | lowerBound min _ _ => inferInstanceAs (Decidable min.InRange)
  | equality _ _ _ value => inferInstanceAs (Decidable value.InRange)
  | flag _ => inferInstanceAs (Decidable True)

def condition : Written → Condition
  | bitTest stat _ mask => .bitNe (.ofList stat.chars) (.ofNat mask.value)
  | bitEquality stat _ mask _ equals =>
    .bitEq (.ofList stat.chars) (.ofNat mask.value) (.ofNat equals.value)
  | range min _ stat _ max => .range (.ofList stat.chars) min.number max.number
  | lowerBound min _ stat => .compare (.ofList stat.chars) .atLeast min.number
  | equality _ stat _ value => .compare (.ofList stat.chars) .equal value.number
  | flag stat => .compare (.ofList stat.chars) .equal (.int 1)

end Written

theorem Gap.spaced (g : Gap) (op : List Char) : Spaced op (g.around op) :=
  ⟨g.before, g.after, rfl, g.allBlank_before, g.allBlank_after⟩

theorem int64?_eq_some_iff {n : Nat} {i : Int64} :
    int64? n = some i ↔ n < 0x8000000000000000 ∧ i = .ofNat n := by
  have hn : (-0x8000000000000000 ≤ (n : Int) ∧ (n : Int) < 0x8000000000000000) ↔
      n < 0x8000000000000000 := by
    omega
  have hi : Int64.ofInt n = .ofNat n := Int64.ofInt_eq_ofNat ..
  simp only [int64?, hn, hi]
  split <;> simp_all [eq_comm]

namespace Literal

theorem isNumeral (l : Literal) : IsNumeral l.text := by
  cases l with
  | whole ds => exact .inl ds.isRun
  | point w f => exact .inr ⟨w.chars, f.chars, rfl, w.isRun, f.isRun⟩

theorem ofLiteral?_text {l : Literal} {v : Number} :
    Number.ofLiteral? l.text = some v ↔ l.InRange ∧ v = l.number := by
  cases l with
  | whole ds =>
    rw [text, Number.ofLiteral?_of_isRun ds.isRun, Option.map_eq_some_iff]
    simp only [int64?_eq_some_iff, InRange, number, Digits.value]
    constructor
    · rintro ⟨i, ⟨h, rfl⟩, rfl⟩
      exact ⟨h, rfl⟩
    · rintro ⟨h, rfl⟩
      exact ⟨_, ⟨h, rfl⟩, rfl⟩
  | point w f =>
    rw [text, Number.ofLiteral?_point w.isRun f.isRun, Option.bind_some, InRange, number, nearest]
    generalize Decimal.toBinary64 _ _ = x
    cases hx : x.isFinite <;> simp [eq_comm]

theorem not_mem_text {l : Literal} {c : Char} (hd : c.isDigit = false) (hp : c ≠ '.') :
    c ∉ l.text := by
  cases l with
  | whole ds => exact isRun_not_mem ds.isRun hd
  | point w f => simp [text, isRun_not_mem w.isRun hd, isRun_not_mem f.isRun hd, hp]

theorem isWord_of_mem_text {l : Literal} {c : Char} (h : c ∈ l.text) :
    isWord c = true ∨ c = '.' := by
  cases l with
  | whole ds => exact .inl (isWord_of_isDigit (ds.isRun.2 c h))
  | point w f =>
    rcases List.mem_append.1 h with h | h
    · exact .inl (isWord_of_isDigit (w.isRun.2 c h))
    · rcases List.mem_cons.1 h with rfl | h
      · exact .inr rfl
      · exact .inl (isWord_of_isDigit (f.isRun.2 c h))

end Literal

section Edges

variable {p : Char → Bool} {u rest : List Char} {c : Char}

theorem of_mem_head? (r : Run p) (h : c ∈ (r.chars ++ rest).head?) : p c = true := by
  rw [List.head?_append_of_ne_nil _ r.isRun.1] at h
  exact r.isRun.2 c (List.mem_of_mem_head? h)

theorem of_mem_getLast? (r : Run p) (h : c ∈ (u ++ r.chars).getLast?) : p c = true := by
  rw [List.getLast?_append_of_ne_nil _ r.isRun.1] at h
  exact r.isRun.2 c (List.mem_of_getLast? h)

theorem Literal.of_mem_head? (l : Literal) (h : c ∈ (l.text ++ rest).head?) :
    c.isDigit = true := by
  cases l with
  | whole ds => exact Clause.of_mem_head? ds h
  | point w f =>
    rw [text, List.append_assoc] at h
    exact Clause.of_mem_head? w h

theorem Literal.of_mem_getLast? (l : Literal) (h : c ∈ (u ++ l.text).getLast?) :
    c.isDigit = true := by
  cases l with
  | whole ds => exact Clause.of_mem_getLast? ds h
  | point w f =>
    rw [text, List.append_cons, ← List.append_assoc] at h
    exact Clause.of_mem_getLast? f h

end Edges

namespace Written

variable {w : Written} {c : Char}

theorem isWord_of_mem_head? (h : c ∈ w.text.head?) : isWord c = true := by
  have hscore : ∀ {rest}, c ∈ (scoreDot ++ rest).head? → isWord c = true := by
    rintro rest ⟨⟩
    decide
  cases w with
  | bitTest | bitEquality | flag => simp only [text, List.append_assoc] at h; exact hscore h
  | range min | lowerBound min =>
    simp only [text, List.append_assoc] at h
    exact isWord_of_isDigit (min.of_mem_head? h)
  | equality dotted stat =>
    simp only [text, List.append_assoc] at h
    cases dotted
    · exact of_mem_head? stat h
    · exact hscore h

theorem isWord_of_mem_getLast? (h : c ∈ w.text.getLast?) : isWord c = true := by
  cases w with
  | bitTest stat amp mask => exact isWord_of_isDigit (of_mem_getLast? mask h)
  | bitEquality stat amp mask eq equals => exact isWord_of_isDigit (of_mem_getLast? equals h)
  | range min le stat less max => exact isWord_of_isDigit (max.of_mem_getLast? h)
  | lowerBound min le stat => exact of_mem_getLast? stat h
  | equality dotted stat eq value => exact isWord_of_isDigit (value.of_mem_getLast? h)
  | flag stat => exact of_mem_getLast? stat h

theorem text_ne_nil : w.text ≠ [] := by
  have hrun : ∀ {p : Char → Bool} (r : Run p), r.chars ≠ [] := fun r ↦ r.isRun.1
  cases w <;> simp [text, scoreDot, hrun, eqEq, Clause.le, Gap.around]

theorem trim_text (w : Written) : trim w.text = w.text :=
  trim_eq_self (fun _ hc ↦ isSpace_of_isWord (isWord_of_mem_head? hc))
    fun _ hc ↦ isSpace_of_isWord (isWord_of_mem_getLast? hc)

def Clear (cs : List Char) : Prop := cs.IsChain fun x y ↦ isBlank x = true → y ≠ 'a'

instance (cs : List Char) : Decidable (Clear cs) :=
  inferInstanceAs (Decidable (cs.IsChain fun x y ↦ isBlank x = true → y ≠ 'a'))

theorem clear_of_not_mem {cs : List Char} (h : 'a' ∉ cs) : Clear cs := by
  induction cs with
  | nil => exact .nil
  | cons x cs ih =>
    refine (ih fun hm ↦ h (by simp [hm])).cons fun y hy _ ↦ ?_
    rintro rfl
    exact h (List.mem_cons_of_mem _ (List.mem_of_mem_head? hy))

theorem clear_of_no_blank {cs : List Char} (h : ∀ x ∈ cs, isBlank x = false) : Clear cs := by
  induction cs with
  | nil => exact .nil
  | cons x cs ih =>
    refine (ih fun y hy ↦ h y (by simp [hy])).cons fun y _ hx ↦ ?_
    rw [h x (by simp)] at hx
    cases hx

theorem clear_around {u v op : List Char} (g : Gap) (hu : Clear u) (hv : Clear v) (ho : 'a' ∉ op)
    (hh : v.head? ≠ some 'a') : Clear (u ++ g.around op ++ v) := by
  have ha : 'a' ∉ g.around op := by
    have h₁ : 'a' ∉ g.before := fun hm ↦ by cases g.allBlank_before _ hm
    have h₂ : 'a' ∉ g.after := fun hm ↦ by cases g.allBlank_after _ hm
    simp [Gap.around, h₁, h₂, ho]
  refine (hu.append (clear_of_not_mem ha) ?_).append hv ?_
  · rintro x - y hy - rfl
    exact ha (List.mem_of_mem_head? hy)
  · rintro x - y hy - rfl
    exact hh hy

theorem Clear.ne_append {c before blanks after : List Char} (h : Clear c)
    (hb : IsRun isBlank blanks) : c ≠ before ++ blanks ++ 'a' :: after := by
  rintro rfl
  obtain ⟨blanks, x, rfl⟩ := List.eq_nil_or_concat blanks |>.resolve_left hb.1
  rw [List.concat_eq_append, ← List.append_assoc, List.append_assoc, List.singleton_append] at h
  exact (List.isChain_append_cons_cons.1 h).2.1 (hb.2 x (by simp)) rfl

theorem clear_word (stat : Word) : Clear (scoreDot ++ stat.chars) :=
  clear_of_no_blank fun x hx ↦ by
    rcases List.mem_append.1 hx with hx | hx
    · exact (by simp [scoreDot, isBlank] : ∀ x ∈ scoreDot, isBlank x = false) x hx
    · exact isBlank_of_isWord (stat.isRun.2 x hx)

theorem clear_literal (l : Literal) : Clear l.text :=
  clear_of_no_blank fun x hx ↦ by
    rcases l.isWord_of_mem_text hx with hw | rfl
    · exact isBlank_of_isWord hw
    · decide

theorem clear_digits (ds : Digits) : Clear ds.chars := clear_literal (.whole ds)

theorem head?_literal_ne (l : Literal) : l.text.head? ≠ some 'a' := by
  intro h
  rw [← List.append_nil l.text] at h
  cases l.of_mem_head? h

theorem clear_text (w : Written) : Clear w.text := by
  have hdigits (ds : Digits) : ds.chars.head? ≠ some 'a' := head?_literal_ne (.whole ds)
  cases w with
  | bitTest stat amp mask =>
    exact clear_around amp (clear_word stat) (clear_digits mask) (by decide) (hdigits mask)
  | bitEquality stat amp mask eq equals =>
    refine clear_around eq ?_ (clear_digits equals) (by decide) (hdigits equals)
    exact clear_around amp (clear_word stat) (clear_digits mask) (by decide) (hdigits mask)
  | range min le stat less max =>
    refine clear_around less ?_ (clear_literal max) (by decide) (head?_literal_ne max)
    rw [List.append_assoc]
    exact clear_around le (clear_literal min) (clear_word stat) (by decide) (by simp [scoreDot])
  | lowerBound min le stat =>
    rw [text, List.append_assoc]
    exact clear_around le (clear_literal min) (clear_word stat) (by decide) (by simp [scoreDot])
  | equality dotted stat eq value =>
    refine clear_around eq ?_ (clear_literal value) (by decide) (head?_literal_ne value)
    cases dotted
    · exact clear_of_no_blank fun x hx ↦ isBlank_of_isWord (stat.isRun.2 x hx)
    · exact clear_word stat
  | flag stat => exact clear_word stat

theorem Clear.solid {cs : List Char} (h : Clear cs) (hne : cs ≠ [])
    (hstarts : ∀ x ∈ cs.head?, isBlank x = false) (hends : ∀ x ∈ cs.getLast?, isBlank x = false) :
    Expression.Solid cs where
  ne_nil := hne
  starts := hstarts
  ends := hends
  no_delimiter before d after hcs := by
    have hand : cs = before ++ d.before ++ 'a' :: ('n' :: 'd' :: (d.after ++ after)) := by
      rw [hcs, Expression.Delimiter.text, Expression.andWord]
      simp
    exact h.ne_append d.isRun_before hand
  no_open before blanks hb hcs := h.ne_append hb hcs

theorem solid_text (w : Written) : Expression.Solid w.text :=
  w.clear_text.solid text_ne_nil (fun _ hx ↦ isBlank_of_isWord (isWord_of_mem_head? hx))
    fun _ hx ↦ isBlank_of_isWord (isWord_of_mem_getLast? hx)

end Written

end Clause

end Achievements
