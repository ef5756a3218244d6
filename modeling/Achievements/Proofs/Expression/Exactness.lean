import Achievements.Proofs.Expression.Splitting

namespace Achievements.Expression

open Text

variable {piece first next rest before after cs : List Char} {d e : Delimiter}
  {r r' : List (Delimiter × List Char)}

def HasDelimiter (cs : List Char) : Prop :=
  ∃ before, ∃ d : Delimiter, ∃ after, cs = before ++ d.text ++ after

/-- No delimiter of the whole starts before the one behind the piece, and none that starts with it
is longer. -/
def Cuts (piece : List Char) (d : Delimiter) (rest : List Char) : Prop :=
  ∀ before (e : Delimiter) after, piece ++ d.text ++ rest = before ++ e.text ++ after →
    piece.length < before.length ∨
      piece.length = before.length ∧ e.text.length ≤ d.text.length

/-- Each piece ends where the first delimiter behind its start begins, this delimiter takes all it
can, and the last piece holds none. -/
def ExactCut : List Char → List (Delimiter × List Char) → Prop
  | piece, [] => ¬ HasDelimiter piece
  | piece, (d, next) :: r => Cuts piece d (joined next r) ∧ ExactCut next r

section Delimiters

def Delimiter.extend (d : Delimiter) (blanks : List Char) (h : AllBlank blanks) : Delimiter where
  before := d.before
  after := d.after ++ blanks
  isRun_before := d.isRun_before
  isRun_after := by
    refine ⟨by simp [d.isRun_after.1], fun c hc ↦ ?_⟩
    rcases List.mem_append.1 hc with hc | hc
    · exact d.isRun_after.2 c hc
    · exact h c hc

theorem text_extend {blanks : List Char} (h : AllBlank blanks) :
    (d.extend blanks h).text = d.text ++ blanks := by
  simp [Delimiter.extend, Delimiter.text]

theorem delimiter_text (d : Delimiter) (rest : List Char) :
    delimiter (d.text ++ rest) = some (skipBlanks rest) := by
  obtain ⟨blanks, hrest, hblanks, hstop⟩ := exists_blank_append rest
  have h := delimiter_text_append (d.extend blanks hblanks) hstop
  rwa [text_extend, List.append_assoc, ← hrest] at h

theorem Delimiter.length_text_pos (d : Delimiter) : 0 < d.text.length := by
  simp only [text, andWord, List.length_append, List.length_cons, List.length_nil]
  omega

theorem Delimiter.text_injective (h : d.text = e.text) : d = e := by
  have hrun (d : Delimiter) : run isBlank d.text = some (d.before, andWord ++ d.after) := by
    rw [text, List.append_assoc]
    exact run_append_of_stops d.isRun_before (stops_cons.2 (by decide))
  have hboth := hrun d
  rw [h, hrun e, Option.some.injEq, Prod.mk.injEq] at hboth
  obtain ⟨hbefore, hafter⟩ := hboth
  have hafter := List.append_cancel_left hafter
  cases d
  cases e
  simp only [mk.injEq]
  exact ⟨hbefore.symm, hafter.symm⟩

end Delimiters

namespace Cuts

theorem not_hasDelimiter (h : Cuts piece d rest) : ¬ HasDelimiter piece := by
  intro hpiece
  obtain ⟨before, e, after, rfl⟩ := hpiece
  have hlt := h before e (after ++ d.text ++ rest) (by simp)
  have hpos := e.length_text_pos
  simp only [List.length_append] at hlt
  omega

theorem stops (h : Cuts piece d rest) : Stops isBlank rest := by
  intro c hc
  obtain ⟨tail, rfl⟩ := List.head?_eq_some_iff.1 hc
  by_contra hblank
  have hc : AllBlank [c] := by simpa [AllBlank] using hblank
  have hlong := h piece (d.extend [c] hc) tail (by simp [text_extend])
  simp only [text_extend, List.length_append, List.length_singleton] at hlong
  omega

theorem ends (h : Cuts piece d rest) : ∀ c ∈ piece.getLast?, isBlank c = false := by
  intro c hc
  obtain ⟨front, rfl⟩ := List.getLast?_eq_some_iff.1 hc
  by_contra hblank
  have hrun : IsRun isBlank (c :: d.before) := by
    refine ⟨by simp, fun x hx ↦ ?_⟩
    rcases List.mem_cons.1 hx with rfl | hx
    · simpa using hblank
    · exact d.isRun_before.2 x hx
  have hearly := h front ⟨c :: d.before, d.after, hrun, d.isRun_after⟩ rest
    (by simp [Delimiter.text])
  simp only [List.length_append, List.length_singleton] at hearly
  omega

theorem of_delimiter (h : delimiter (d.text ++ rest) = some rest) : Cuts [] d rest := by
  intro before e after heq
  cases before with
  | cons c before => simp
  | nil =>
    right
    rw [List.nil_append, List.nil_append] at heq
    have htake := delimiter_text e after
    rw [← heq, h, Option.some.injEq] at htake
    have hle : (skipBlanks after).length ≤ after.length :=
      (List.dropWhile_suffix isBlank).length_le
    have hlen := congrArg List.length heq
    simp only [List.length_append, ← htake] at hle hlen
    exact ⟨rfl, by omega⟩

theorem cons {c : Char} (h : Cuts piece d rest)
    (hnone : delimiter (c :: (piece ++ d.text ++ rest)) = none) : Cuts (c :: piece) d rest := by
  intro before e after heq
  cases before with
  | nil =>
    rw [List.cons_append, List.cons_append] at heq
    rw [heq, List.nil_append, delimiter_text] at hnone
    cases hnone
  | cons x before =>
    have htail := h before e after (List.cons.inj heq).2
    simp only [List.length_cons]
    omega

theorem unique (h : Cuts piece d rest) (h' : Cuts first e next)
    (heq : piece ++ d.text ++ rest = first ++ e.text ++ next) :
    piece = first ∧ d = e ∧ rest = next := by
  have hforth := h first e next heq
  have hback := h' piece d rest heq.symm
  have hfront : (piece ++ d.text).length = (first ++ e.text).length := by
    simp only [List.length_append]
    omega
  obtain ⟨hfront, hrest⟩ := List.append_inj heq hfront
  obtain ⟨hpiece, htext⟩ := List.append_inj hfront (by omega)
  exact ⟨hpiece, Delimiter.text_injective htext, hrest⟩

end Cuts

theorem exactCut_cons {c : Char} (h : ExactCut piece r)
    (hnone : delimiter (c :: joined piece r) = none) : ExactCut (c :: piece) r := by
  cases r with
  | nil =>
    intro hpiece
    obtain ⟨before, d, after, heq⟩ := hpiece
    cases before with
    | nil =>
      rw [joined, heq, List.nil_append, delimiter_text] at hnone
      cases hnone
    | cons x before => exact h ⟨before, d, after, (List.cons.inj heq).2⟩
  | cons x r =>
    obtain ⟨d, next⟩ := x
    rw [joined, ← List.append_assoc] at hnone
    exact ⟨h.1.cons hnone, h.2⟩

theorem exists_exactCut (piece cs : List Char) :
    ∃ first r, splitFrom piece cs = (piece.reverse ++ first) :: r.map Prod.snd ∧
      joined first r = cs ∧ ExactCut first r := by
  fun_induction splitFrom piece cs with
  | case1 piece cs rest hrest ih =>
    obtain ⟨first, r, hsplit, hjoined, hcut⟩ := ih
    obtain ⟨d, rfl, -⟩ := delimiter_sound hrest
    refine ⟨[], (d, first) :: r, by simp [hsplit], by simp [joined, hjoined], ?_, hcut⟩
    rw [hjoined]
    exact Cuts.of_delimiter hrest
  | case2 piece hnone =>
    refine ⟨[], [], by simp, rfl, ?_⟩
    intro h
    obtain ⟨before, d, after, heq⟩ := h
    have hpos := d.length_text_pos
    have hlen := congrArg List.length heq
    simp only [List.length_nil, List.length_append] at hlen
    omega
  | case3 piece c cs hnone ih =>
    obtain ⟨first, r, hsplit, hjoined, hcut⟩ := ih
    rw [← hjoined] at hnone
    refine ⟨c :: first, r, by simp [hsplit], ?_, exactCut_cons hcut hnone⟩
    rw [← hjoined]
    cases r <;> rfl

namespace ExactCut

theorem unique (h : ExactCut first r) (h' : ExactCut next r')
    (heq : joined first r = joined next r') : first = next ∧ r = r' := by
  induction r generalizing first next r' with
  | nil =>
    cases r' with
    | nil => exact ⟨heq, rfl⟩
    | cons x r' =>
      rw [joined, joined, ← List.append_assoc] at heq
      exact absurd ⟨_, _, _, heq⟩ h
  | cons x r ih =>
    cases r' with
    | nil =>
      rw [joined, joined, ← List.append_assoc] at heq
      exact absurd ⟨_, _, _, heq.symm⟩ h'
    | cons x' r' =>
      rw [joined, joined, ← List.append_assoc, ← List.append_assoc] at heq
      obtain ⟨hfirst, hd, hrest⟩ := h.1.unique h'.1 heq
      obtain ⟨hnext, hr⟩ := ih h.2 h'.2 hrest
      exact ⟨hfirst, by rw [Prod.ext hd hnext, hr]⟩

theorem not_hasDelimiter (h : ExactCut first r) :
    ∀ p ∈ first :: r.map Prod.snd, ¬ HasDelimiter p := by
  induction r generalizing first with
  | nil =>
    have hlast : ¬ HasDelimiter first := h
    simpa using hlast
  | cons x r ih =>
    rw [List.map_cons, List.forall_mem_cons]
    exact ⟨h.1.not_hasDelimiter, ih h.2⟩

theorem starts (h : ExactCut first r) : ∀ p ∈ r.map Prod.snd, Stops isBlank p := by
  induction r generalizing first with
  | nil => simp
  | cons x r ih =>
    obtain ⟨d, next⟩ := x
    rw [List.map_cons, List.forall_mem_cons]
    refine ⟨?_, ih h.2⟩
    have hstop := h.1.stops
    cases next with
    | nil => exact stops_nil
    | cons c next =>
      cases r with
      | nil => exact hstop
      | cons x r => exact hstop

theorem ends (h : ExactCut first r) :
    ∀ p ∈ (first :: r.map Prod.snd).dropLast, ∀ c ∈ p.getLast?, isBlank c = false := by
  induction r generalizing first with
  | nil => simp
  | cons x r ih =>
    rw [List.map_cons, List.dropLast_cons_cons, List.forall_mem_cons]
    exact ⟨h.1.ends, ih h.2⟩

theorem ne_nil (h : ExactCut first r) : ∀ p ∈ (r.map Prod.snd).dropLast, p ≠ [] := by
  induction r generalizing first with
  | nil => simp
  | cons x r ih =>
    cases r with
    | nil => simp
    | cons x' r =>
      rw [List.map_cons, List.map_cons, List.dropLast_cons_cons, List.forall_mem_cons]
      refine ⟨fun hnil ↦ ?_, ih h.2⟩
      have hstop := h.1.stops
      obtain ⟨c, blanks, hblanks⟩ := List.exists_cons_of_ne_nil x'.1.isRun_before.1
      have hc := x'.1.isRun_before.2 c (by simp [hblanks])
      rw [hnil, joined, Delimiter.text, hblanks] at hstop
      rw [stops_cons.1 hstop] at hc
      cases hc

end ExactCut

/-- The clauses of an expression and the delimiters between them make up its body, cut exactly. So
no clause holds a delimiter, no blank stands on either side of one, nothing is lost between two, and
no other pieces are cut exactly. -/
theorem clauses_cut_exactly (expression : String) :
    ∃ first rest, clauses expression = (first :: rest.map Prod.snd).map .ofList ∧
      joined first rest = unwrap (trim expression.toList) ∧ ExactCut first rest ∧
      (∀ p ∈ first :: rest.map Prod.snd, ¬ HasDelimiter p) ∧
      (∀ p ∈ rest.map Prod.snd, Stops isBlank p) ∧
      (∀ p ∈ (first :: rest.map Prod.snd).dropLast, ∀ c ∈ p.getLast?, isBlank c = false) ∧
      (∀ p ∈ (rest.map Prod.snd).dropLast, p ≠ []) ∧
      ∀ first' rest', joined first' rest' = unwrap (trim expression.toList) →
        ExactCut first' rest' → first' = first ∧ rest' = rest := by
  obtain ⟨first, rest, hsplit, hjoined, hcut⟩ :=
    exists_exactCut [] (unwrap (trim expression.toList))
  refine ⟨first, rest, ?_, hjoined, hcut, hcut.not_hasDelimiter, hcut.starts, hcut.ends,
    hcut.ne_nil, fun first' rest' hjoined' hcut' ↦ hcut'.unique hcut (hjoined'.trans hjoined.symm)⟩
  rw [clauses, hsplit, List.reverse_nil, List.nil_append]

end Achievements.Expression
