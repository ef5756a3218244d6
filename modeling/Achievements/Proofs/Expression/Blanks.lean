import Achievements.Proofs.Expression.Composition

namespace Achievements

namespace Text

theorem trim_eq_nil_iff {cs : List Char} : trim cs = [] ↔ ∀ c ∈ cs, isSpace c = true := by
  rw [trim, trimEnd, List.reverse_eq_nil_iff, List.dropWhile_eq_nil_iff]
  constructor
  · intro h
    have hnil : trimStart cs = [] := by
      cases hcs : trimStart cs with
      | nil => rfl
      | cons c rest =>
        have hstop : Stops isSpace (trimStart cs) := stops_dropWhile
        have hspace := h c (by simp [hcs])
        rw [hcs, stops_cons, hspace] at hstop
        cases hstop
    exact List.dropWhile_eq_nil_iff.1 hnil
  · intro h c hc
    exact h c ((List.dropWhile_suffix isSpace).subset (List.mem_reverse.1 hc))

theorem unusual_of_isSpace {c : Char} (hs : isSpace c = true) (hb : isBlank c = false) :
    c = '\x0b' ∨ 0x80 ≤ c.toNat := by
  rcases Nat.lt_or_ge c.toNat 0x80 with h | h
  · left
    have hne (d : Char) (hd : isBlank d = true) : c.toNat ≠ d.toNat := by
      intro heq
      rw [Char.toNat_inj.1 heq, hd] at hb
      cases hb
    have htab := hne '\t' rfl
    have hline := hne '\n' rfl
    have hfeed := hne '\x0c' rfl
    have hreturn := hne '\r' rfl
    have hspace := hne ' ' rfl
    simp only [isSpace, Bool.or_eq_true, Bool.and_eq_true, decide_eq_true_eq] at hs
    simp only [Char.reduceToNat] at htab hline hfeed hreturn hspace
    apply Char.toNat_inj.1
    simp only [Char.reduceToNat]
    omega
  · exact .inr h

end Text

namespace Expression

open Text Clause

def isBlankClause (c : String) : Bool := c.toList.all isSpace

def isUnknown (c : String) : Bool := (classify c).isNone && !isBlankClause c

theorem isBlankClause_iff {c : String} : isBlankClause c = true ↔ trim c.toList = [] := by
  rw [isBlankClause, List.all_eq_true, trim_eq_nil_iff]

theorem classify_of_isBlankClause {c : String} (h : isBlankClause c = true) :
    classify c = none := by
  rw [classify, body, isBlankClause_iff.1 h]
  rfl

theorem length_rejected (cs : List String) : (rejected cs).length = cs.countP isUnknown := by
  have hunknown (c : String) :
      ((classify c).isNone && decide (trim c.toList ≠ [])) = isUnknown c := by
    rw [isUnknown]
    cases hblank : isBlankClause c with
    | true => simp [isBlankClause_iff.1 hblank]
    | false =>
      have hne : trim c.toList ≠ [] := by
        intro hnil
        rw [isBlankClause_iff.2 hnil] at hblank
        cases hblank
      simp [hne]
  rw [rejected, List.length_map, List.countP_eq_length_filter]
  simp only [hunknown]

theorem length_accepted_add (cs : List String) :
    (accepted cs).length + cs.countP isUnknown + cs.countP isBlankClause = cs.length := by
  induction cs with
  | nil => rfl
  | cons c cs ih =>
    have hclause : ((classify c).map Prod.snd).toList.length + (if isUnknown c then 1 else 0) +
        (if isBlankClause c then 1 else 0) = 1 := by
      cases hblank : isBlankClause c with
      | true => simp [isUnknown, hblank, classify_of_isBlankClause hblank]
      | false => cases h : classify c <;> simp [isUnknown, hblank, h]
    have hcons : (accepted (c :: cs)).length =
        ((classify c).map Prod.snd).toList.length + (accepted cs).length := by
      rw [accepted, List.filterMap_cons]
      cases (classify c).map Prod.snd <;> simp [accepted, Nat.add_comm]
    rw [hcons, List.countP_cons, List.countP_cons, List.length_cons]
    omega

section Inner

variable {piece cs p : List Char}

theorem delimiter_of_stops (h : Stops isBlank cs) : delimiter cs = none := by
  rw [Option.eq_none_iff_forall_ne_some]
  intro rest hrest
  obtain ⟨d, rfl, -⟩ := delimiter_sound hrest
  obtain ⟨x, before, hx⟩ := List.exists_cons_of_ne_nil d.isRun_before.1
  have hblank := d.isRun_before.2 x (by simp [hx])
  rw [Delimiter.text, hx, List.cons_append, List.cons_append, List.cons_append, stops_cons,
    hblank] at h
  cases h

theorem exists_splitFrom (piece cs : List Char) :
    ∃ u rest, splitFrom piece cs = (piece.reverse ++ u) :: rest := by
  fun_induction splitFrom piece cs with
  | case1 piece cs rest hrest ih => exact ⟨[], _, by rw [List.append_nil]⟩
  | case2 piece hnone => exact ⟨[], [], by rw [List.append_nil]⟩
  | case3 piece x cs hnone ih =>
    obtain ⟨u, rest, h⟩ := ih
    exact ⟨x :: u, rest, by simp [h]⟩

/-- A delimiter takes all blanks behind it, so that a piece with another one behind it starts with
some other character. -/
theorem head?_of_splitFrom {before after : List (List Char)}
    (h : splitFrom piece cs = before ++ p :: after) (hbefore : before ≠ []) (hafter : after ≠ []) :
    ∃ x ∈ p.head?, isBlank x = false := by
  fun_induction splitFrom piece cs generalizing before with
  | case1 piece cs rest hrest ih =>
    obtain ⟨q, before, rfl⟩ := List.exists_cons_of_ne_nil hbefore
    rw [List.cons_append] at h
    obtain ⟨-, h⟩ := List.cons.inj h
    cases before with
    | cons q' before => exact ih h (List.cons_ne_nil _ _)
    | nil =>
      obtain ⟨-, -, hstop⟩ := delimiter_sound hrest
      cases rest with
      | nil =>
        rw [splitFrom_nil] at h
        exact absurd (List.cons.inj h).2.symm hafter
      | cons x rest =>
        obtain ⟨u, others, hfirst⟩ := exists_splitFrom [x] rest
        rw [splitFrom_cons (delimiter_of_stops hstop), hfirst] at h
        obtain ⟨rfl, -⟩ := List.cons.inj h
        exact ⟨x, by simp, stops_cons.1 hstop⟩
  | case2 piece hnone =>
    obtain ⟨q, before, rfl⟩ := List.exists_cons_of_ne_nil hbefore
    simp at h
  | case3 piece x cs hnone ih => exact ih h hbefore

theorem inner_blank {expression c : String} {before after : List String}
    (h : clauses expression = before ++ c :: after) (hbefore : before ≠ []) (hafter : after ≠ [])
    (hc : isBlankClause c = true) : ∃ x ∈ c.toList, x = '\x0b' ∨ 0x80 ≤ x.toNat := by
  obtain ⟨before', rest, hsplit, rfl, hrest⟩ := List.map_eq_append_iff.1 h
  obtain ⟨p, after', rfl, rfl, rfl⟩ := List.map_eq_cons_iff.1 hrest
  obtain ⟨x, hx, hblank⟩ :=
    head?_of_splitFrom hsplit (by simpa using hbefore) (by simpa using hafter)
  rw [isBlankClause, String.toList_ofList, List.all_eq_true] at hc
  have hmem := List.mem_of_mem_head? hx
  rw [String.toList_ofList]
  exact ⟨x, hmem, unusual_of_isSpace (hc x hmem) hblank⟩

end Inner

end Expression

end Achievements
