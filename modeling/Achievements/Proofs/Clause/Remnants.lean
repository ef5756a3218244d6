import Achievements.Proofs.Clause.Classification

namespace Achievements.Clause

open Text

variable {α : Type} {p s t u m v b b' : List Char} {c : Condition} {f : Form}

/-- Characters that are in no name and no literal, and in no operator that a test looks for. -/
def Inert (cs : List Char) : Prop := ∀ c ∈ cs, isWord c = false ∧ c ≠ '&' ∧ c ≠ '=' ∧ c ≠ '<'

instance (cs : List Char) : Decidable (Inert cs) :=
  List.decidableBAll (fun c ↦ isWord c = false ∧ c ≠ '&' ∧ c ≠ '=' ∧ c ≠ '<') cs

structure Edged (t : List Char) : Prop where
  ne_nil : t ≠ []
  starts : ∀ c ∈ t.head?, isWord c = true
  ends : ∀ c ∈ t.getLast?, isWord c = true

theorem Inert.not_mem {cs : List Char} {x : Char} (h : Inert cs) (hx : isWord x = true) :
    x ∉ cs := by
  intro hm
  rw [(h x hm).1] at hx
  cases hx

theorem Inert.amp_not_mem {cs : List Char} (h : Inert cs) : '&' ∉ cs :=
  fun hm ↦ (h _ hm).2.1 rfl

theorem Inert.eq_not_mem {cs : List Char} (h : Inert cs) : '=' ∉ cs :=
  fun hm ↦ (h _ hm).2.2.1 rfl

theorem Inert.less_not_mem {cs : List Char} (h : Inert cs) : '<' ∉ cs :=
  fun hm ↦ (h _ hm).2.2.2 rfl

/-- An occurrence that neither starts in what stands before a text nor ends in what stands behind it
lies in the text. -/
theorem exists_between {x y : List Char} (h : p ++ t ++ s = x ++ m ++ y) (hm : m ≠ [])
    (hhead : ∀ c ∈ m.head?, c ∉ p) (hlast : ∀ c ∈ m.getLast?, c ∉ s) :
    ∃ x' y', t = x' ++ m ++ y' ∧ x = p ++ x' ∧ y = y' ++ s := by
  have hstart : ∃ x', x = p ++ x' ∧ t ++ s = x' ++ m ++ y := by
    rw [List.append_assoc, List.append_assoc, List.append_eq_append_iff] at h
    rcases h with ⟨x', hx, hts⟩ | ⟨q, hq, hmy⟩
    · exact ⟨x', hx, by rw [hts, List.append_assoc]⟩
    · cases q with
      | nil => exact ⟨[], by simpa using hq.symm, by simpa using hmy.symm⟩
      | cons d q =>
        obtain ⟨e, m, rfl⟩ := List.exists_cons_of_ne_nil hm
        obtain ⟨rfl, -⟩ := List.cons.inj hmy
        exact absurd (by simp [hq]) (hhead e rfl)
  obtain ⟨x', hx, hts⟩ := hstart
  rw [List.append_eq_append_iff] at hts
  rcases hts with ⟨q, hq, hs⟩ | ⟨y', ht, hy⟩
  · cases q using List.reverseRecOn with
    | nil => exact ⟨x', [], by simpa using hq.symm, hx, by simpa using hs.symm⟩
    | append_singleton q d =>
      have hd : d ∈ m.getLast? := by
        rw [← List.getLast?_append_of_ne_nil x' hm, hq, ← List.append_assoc]
        simp
      exact absurd (by simp [hs]) (hlast d hd)
  · exact ⟨x', y', ht, hx, hy⟩

theorem Edged.append (hu : Edged u) (hv : Edged v) (m : List Char) : Edged (u ++ m ++ v) where
  ne_nil := by simp [hu.ne_nil]
  starts := by
    rw [List.append_assoc, List.head?_append_of_ne_nil _ hu.ne_nil]
    exact hu.starts
  ends := by
    rw [List.getLast?_append_of_ne_nil _ hv.ne_nil]
    exact hv.ends

section Forms

theorem edged_of_isRun {q : Char → Bool} (h : IsRun q t) (hq : ∀ c, q c = true → isWord c = true) :
    Edged t where
  ne_nil := h.1
  starts c hc := hq c (h.2 c (List.mem_of_mem_head? hc))
  ends c hc := hq c (h.2 c (List.mem_of_getLast? hc))

theorem edged_word (h : IsRun isWord t) : Edged t := edged_of_isRun h fun _ ↦ id

theorem edged_digits (h : IsRun Char.isDigit t) : Edged t :=
  edged_of_isRun h fun _ ↦ isWord_of_isDigit

theorem edged_numeral (h : IsNumeral t) : Edged t := by
  rcases h with h | ⟨whole, frac, rfl, hw, hf⟩
  · exact edged_digits h
  · rw [List.append_cons]
    exact (edged_digits hw).append (edged_digits hf) ['.']

theorem edged_scoreDot (h : IsRun isWord t) : Edged (scoreDot ++ t) := by
  have hs : Edged ['s'] := edged_word (by decide)
  exact hs.append (edged_word h) ['c', 'o', 'r', 'e', '.']

theorem edged_bitTest {a : List Char × List Char} (h : BitTestText a t) : Edged t := by
  obtain ⟨op, rfl, hs, -, hm⟩ := h
  exact (edged_scoreDot hs).append (edged_digits hm) op

theorem edged_bitEquality {a : List Char × List Char × List Char} (h : BitEqualityText a t) :
    Edged t := by
  obtain ⟨u, op, rfl, hu, -, he⟩ := h
  exact (edged_bitTest hu).append (edged_digits he) op

theorem edged_lowerBound {a : List Char × List Char} (h : LowerBoundText a t) : Edged t := by
  obtain ⟨op, rfl, hm, -, hs⟩ := h
  rw [List.append_assoc]
  exact (edged_numeral hm).append (edged_scoreDot hs) op

theorem edged_range {a : List Char × List Char × List Char} (h : RangeText a t) : Edged t := by
  obtain ⟨u, op, rfl, hu, -, hm⟩ := h
  exact (edged_lowerBound hu).append (edged_numeral hm) op

theorem edged_equality {a : List Char × List Char} (h : EqualityText a t) : Edged t := by
  obtain ⟨dot, op, hdot, rfl, hs, -, hv⟩ := h
  rcases hdot with rfl | rfl
  · exact (edged_word hs).append (edged_numeral hv) op
  · exact (edged_scoreDot hs).append (edged_numeral hv) op

end Forms

theorem leftmost_around_iff {F : α → List Char → Prop} (hF : ∀ {a t}, F a t → Edged t)
    (hp : Inert p) (hs : Inert s) {a : α} : Leftmost F (p ++ t ++ s) a ↔ Leftmost F t a := by
  have hbetween {x m y : List Char} {a : α} (h : p ++ t ++ s = x ++ m ++ y) (ha : F a m) :
      ∃ x' y', t = x' ++ m ++ y' ∧ x = p ++ x' ∧ y = y' ++ s :=
    exists_between h (hF ha).ne_nil (fun c hc ↦ hp.not_mem ((hF ha).starts c hc))
      fun c hc ↦ hs.not_mem ((hF ha).ends c hc)
  -- the texts of the form are those of the middle, each as far behind as the front is long
  constructor
  · rintro ⟨before, text, after, h, ha, hfirst⟩
    obtain ⟨before, after, rfl, rfl, rfl⟩ := hbetween h ha
    refine ⟨before, text, after, rfl, ha, fun before' a' text' after' h' ha' ↦ ?_⟩
    have hshift := hfirst (p ++ before') a' text' (after' ++ s) (by simp [h']) ha'
    simp only [List.length_append] at hshift
    omega
  · rintro ⟨before, text, after, rfl, ha, hfirst⟩
    refine ⟨p ++ before, text, after ++ s, by simp, ha, fun before' a' text' after' h' ha' ↦ ?_⟩
    obtain ⟨before', after', ht, rfl, rfl⟩ := hbetween h' ha'
    have hshift := hfirst before' a' text' after' ht ha'
    simp only [List.length_append]
    omega

theorem infix_around_iff (hm : m ≠ []) (hhead : ∀ c ∈ m.head?, c ∉ p)
    (hlast : ∀ c ∈ m.getLast?, c ∉ s) : m <:+: p ++ t ++ s ↔ m <:+: t := by
  constructor
  · rintro ⟨x, y, h⟩
    obtain ⟨x', y', ht, -⟩ := exists_between h.symm hm hhead hlast
    exact ⟨x', y', ht.symm⟩
  · intro h
    exact h.trans (List.infix_append p t s)

theorem bareLess_around_iff (hp : Inert p) (hs : Inert s) :
    BareLess (p ++ t ++ s) ↔ BareLess t := by
  have heq : s.head? ≠ some '=' := fun h ↦ hs.eq_not_mem (List.mem_of_mem_head? h)
  have hhead (after : List Char) : (after ++ s).head? ≠ some '=' ↔ after.head? ≠ some '=' := by
    cases after with
    | nil => simpa using heq
    | cons x after => rfl
  constructor
  · rintro ⟨before, after, h, hne⟩
    have hsplit : p ++ t ++ s = before ++ ['<'] ++ after := by simpa using h
    obtain ⟨x, y, rfl, -, rfl⟩ := exists_between hsplit (by simp)
      (by simpa using hp.less_not_mem) (by simpa using hs.less_not_mem)
    exact ⟨x, y, by simp, (hhead y).1 hne⟩
  · rintro ⟨before, after, rfl, hne⟩
    exact ⟨p ++ before, after ++ s, by simp, (hhead after).2 hne⟩

/-- Bodies that agree on all that the rules ask, but for the rule for flags. -/
structure Alike (b b' : List Char) : Prop where
  amp : '&' ∈ b ↔ '&' ∈ b'
  eqEq : eqEq <:+: b ↔ eqEq <:+: b'
  le : le <:+: b ↔ le <:+: b'
  bareLess : BareLess b ↔ BareLess b'
  bitTest (a) : Leftmost BitTestText b a ↔ Leftmost BitTestText b' a
  bitEquality (a) : Leftmost BitEqualityText b a ↔ Leftmost BitEqualityText b' a
  range (a) : Leftmost RangeText b a ↔ Leftmost RangeText b' a
  lowerBound (a) : Leftmost LowerBoundText b a ↔ Leftmost LowerBoundText b' a
  equality (a) : Leftmost EqualityText b a ↔ Leftmost EqualityText b' a

theorem Alike.symm (h : Alike b b') : Alike b' b :=
  ⟨h.amp.symm, h.eqEq.symm, h.le.symm, h.bareLess.symm, fun a ↦ (h.bitTest a).symm,
    fun a ↦ (h.bitEquality a).symm, fun a ↦ (h.range a).symm, fun a ↦ (h.lowerBound a).symm,
    fun a ↦ (h.equality a).symm⟩

theorem Alike.reads (h : Alike b b') (hf : f ≠ .flag) (hr : Reads f b c) : Reads f b' c := by
  cases hr with
  | bitTest hamp heq hl hm =>
    exact .bitTest (h.amp.1 hamp) (mt h.eqEq.2 heq) ((h.bitTest _).1 hl) hm
  | bitEquality hamp heq hl hm he =>
    exact .bitEquality (h.amp.1 hamp) (h.eqEq.1 heq) ((h.bitEquality _).1 hl) hm he
  | range hle hless hl hlo hhi =>
    exact .range (h.le.1 hle) (h.bareLess.1 hless) ((h.range _).1 hl) hlo hhi
  | lowerBound hle hless hl hlo =>
    exact .lowerBound (h.le.1 hle) (mt h.bareLess.2 hless) ((h.lowerBound _).1 hl) hlo
  | equality heq hl hv => exact .equality (h.eqEq.1 heq) ((h.equality _).1 hl) hv
  | flag => exact absurd rfl hf

theorem alike_around (hp : Inert p) (hs : Inert s) : Alike (p ++ t ++ s) t where
  amp := by simp [hp.amp_not_mem, hs.amp_not_mem]
  eqEq := by
    apply infix_around_iff (by decide)
    · simpa [Clause.eqEq] using hp.eq_not_mem
    · simpa [Clause.eqEq] using hs.eq_not_mem
  le := by
    apply infix_around_iff (by decide)
    · simpa [Clause.le] using hp.less_not_mem
    · simpa [Clause.le] using hs.eq_not_mem
  bareLess := bareLess_around_iff hp hs
  bitTest _ := leftmost_around_iff edged_bitTest hp hs
  bitEquality _ := leftmost_around_iff edged_bitEquality hp hs
  range _ := leftmost_around_iff edged_range hp hs
  lowerBound _ := leftmost_around_iff edged_lowerBound hp hs
  equality _ := leftmost_around_iff edged_equality hp hs

theorem not_reads_flag_around (hp : Inert p) (hs : Inert s) (hne : p ≠ [] ∨ s ≠ []) :
    ¬ Reads .flag (p ++ t ++ s) c := by
  intro h
  generalize hb : p ++ t ++ s = b at h
  cases h with
  | flag hstat =>
    have hedged := edged_scoreDot hstat
    rw [← hb] at hedged
    rcases hne with hne | hne
    · obtain ⟨x, p, rfl⟩ := List.exists_cons_of_ne_nil hne
      exact hp.not_mem (hedged.starts x rfl) (by simp)
    · have hends := hedged.ends
      rw [List.getLast?_append_of_ne_nil _ hne, List.getLast?_eq_some_getLast hne] at hends
      exact hs.not_mem (hends _ rfl) (List.getLast_mem hne)

/-- Remnants around a body change nothing, except that a flag is lost. -/
theorem firstReading_around (hp : Inert p) (hs : Inert s) (hne : p ≠ [] ∨ s ≠ []) :
    firstReading rules (p ++ t ++ s) = (firstReading rules t).filter (·.1 ≠ .flag) := by
  have halike : Alike (p ++ t ++ s) t := alike_around hp hs
  have hreads {g : Form} {d : Condition} (h : Reads g (p ++ t ++ s) d) :
      g ≠ .flag ∧ Reads g t d := by
    have hg : g ≠ .flag := by
      rintro rfl
      exact not_reads_flag_around hp hs hne h
    exact ⟨hg, halike.reads hg h⟩
  cases hfirst : firstReading rules t with
  | none =>
    rw [firstReading_eq_none_iff] at hfirst
    rw [Option.filter_none, firstReading_eq_none_iff]
    intro g d h
    exact hfirst g d (hreads h).2
  | some x =>
    obtain ⟨f, c⟩ := x
    obtain ⟨hf, hlower⟩ := firstReading_eq_some_iff.1 hfirst
    by_cases hflag : f = .flag
    · subst hflag
      -- the flag rule is the last one, so no other reads the body
      rw [Option.filter_some, if_neg (by simp), firstReading_eq_none_iff]
      intro g d h
      obtain ⟨hg, hd⟩ := hreads h
      refine hlower g d ?_ hd
      cases g <;> simp_all [Form.rank]
    · rw [Option.filter_some, if_pos (by simpa using hflag), firstReading_eq_some_iff]
      refine ⟨halike.symm.reads hflag hf, fun g d hlt h ↦ ?_⟩
      exact hlower g d hlt (hreads h).2

end Achievements.Clause
