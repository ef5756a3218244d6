import Achievements.Proofs.Json.Written

namespace Achievements.Json

variable {rest : List Char}

namespace Written

section Brackets

variable {b : List Char} {closing : Char} {fuel : Nat}

theorem ends_behind (hb : AllBlank b) (hc : closing = ']' ∨ closing = '\x7d')
    (ps : List (List Char)) (rest : List Char) :
    Ends (b ++ (ps.flatMap (',' :: ·) ++ closing :: rest)) := by
  cases ps with
  | nil =>
    refine ends_cons_of_blank hb fun c hc' ↦ ?_
    obtain rfl : closing = c := by simpa using hc'
    exact .inr (.inr hc)
  | cons p ps => exact ends_cons_of_blank hb (by simp [Ends])

theorem length_le_length_behind (ps : List (List Char)) :
    ps.length ≤ (ps.flatMap (',' :: ·)).length := by
  induction ps with
  | nil => exact Nat.le_refl _
  | cons p ps ih =>
    simp only [List.flatMap_cons, List.length_append, List.length_cons]
    omega

theorem nextItem_append_blank (hb : AllBlank b) (first : Bool) (cs : List Char) :
    nextItem first (b ++ cs) = nextItem first cs := by
  simp only [nextItem, skipBlanks_append hb]

theorem nextKey_append_blank (hb : AllBlank b) (first : Bool) (cs : List Char) :
    nextKey first (b ++ cs) = nextKey first cs := by
  simp only [nextKey, skipBlanks_append hb]

section Items

variable {item : Reader Json} {is : List (Gap × Written)}

theorem length_itemTexts (is : List (Gap × Written)) : (itemTexts is).length = is.length := by
  induction is with
  | nil => rfl
  | cons i is ih => rw [itemTexts, List.length_cons, ih, List.length_cons]

theorem toOption_items_item {first : Bool} {cs cs' : List Char} {o : Option Json}
    (hnext : nextItem first cs = .ok (.item cs'))
    (hitem : (item cs').toOption = o.map (·, rest)) :
    (items item (fuel + 1) first cs).toOption =
      o.bind fun v ↦
        (items item fuel false rest).toOption.map fun (vs, rest) ↦ (v :: vs, rest) := by
  rw [items, hnext]
  refine (toOption_bind (item cs') _).trans ?_
  rw [hitem]
  cases o with
  | none => rfl
  | some v =>
    refine (toOption_bind (items item fuel false rest) _).trans ?_
    cases items item fuel false rest <;> rfl

theorem items_texts (h : ∀ i ∈ is, Settles item i.2.text i.2.value?) (hb : AllBlank b)
    (hfuel : is.length < fuel) (rest : List Char) :
    (items item fuel false (b ++ ((itemTexts is).flatMap (',' :: ·) ++ ']' :: rest))).toOption =
      (itemValues is).map (·, rest) := by
  induction is generalizing b fuel with
  | nil =>
    obtain ⟨fuel, rfl⟩ := Nat.exists_eq_succ_of_ne_zero (Nat.ne_zero_of_lt hfuel)
    rw [items, nextItem_append_blank hb]
    rfl
  | cons i is ih =>
    obtain ⟨gap, w⟩ := i
    obtain ⟨fuel, rfl⟩ := Nat.exists_eq_succ_of_ne_zero (Nat.ne_zero_of_lt hfuel)
    have hitem := h (gap, w) (by simp) _
      (ends_behind gap.after.blank (.inl rfl) (itemTexts is) rest)
    have hmore := ih (fun i hi ↦ h i (by simp [hi])) gap.after.blank (Nat.lt_of_succ_lt_succ hfuel)
    simp only [itemTexts, List.flatMap_cons, Gap.around, List.cons_append, List.append_assoc]
    have hnext := nextItem_append_blank hb false
    rw [toOption_items_item ((hnext _).trans (nextItem_comma gap.before.blank w.opens_text)) hitem,
      hmore, itemValues]
    cases w.value? <;> cases itemValues is <;> rfl

theorem allItems_texts (h : ∀ i ∈ is, Settles item i.2.text i.2.value?) (hb : AllBlank b)
    (rest : List Char) :
    (allItems item false (b ++ ((itemTexts is).flatMap (',' :: ·) ++ ']' :: rest))).toOption =
      (itemValues is).map (·, rest) := by
  have hlength := length_le_length_behind (itemTexts is)
  rw [length_itemTexts] at hlength
  refine items_texts h hb ?_ rest
  simp only [List.length_append, List.length_cons]
  omega

theorem allItems_text (h : ∀ i ∈ is, Settles item i.2.text i.2.value?) (inner : Blanks)
    (rest : List Char) :
    (allItems item true (inner.chars ++ (joined (itemTexts is) ++ ']' :: rest))).toOption =
      (itemValues is).map (·, rest) := by
  cases is with
  | nil =>
    rw [allItems, items, nextItem_append_blank inner.blank]
    rfl
  | cons i is =>
    obtain ⟨gap, w⟩ := i
    have hitem := h (gap, w) (by simp) _
      (ends_behind gap.after.blank (.inl rfl) (itemTexts is) rest)
    have hlength := length_le_length_behind (itemTexts is)
    rw [length_itemTexts] at hlength
    simp only [itemTexts, joined, Gap.around, List.append_assoc]
    have hnext := nextItem_append_blank inner.blank true
    rw [allItems, toOption_items_item
      ((hnext _).trans (nextItem_first gap.before.blank w.opens_text)) hitem, itemValues,
      items_texts (fun i hi ↦ h i (by simp [hi])) gap.after.blank]
    · cases w.value? <;> cases itemValues is <;> rfl
    · simp only [List.length_append, List.length_cons]
      omega

end Items

section Members

variable {σ : Type} {step : σ → String → Reader σ} {effect : σ → String × Json → Option σ}
  {ms : List (Key × Written)} {s : σ}

theorem length_memberTexts (ms : List (Key × Written)) : (memberTexts ms).length = ms.length := by
  induction ms with
  | nil => rfl
  | cons m ms ih => rw [memberTexts, List.length_cons, ih, List.length_cons]

theorem toOption_members_item {first : Bool} {cs behind : List Char} {ps : List Piece}
    {o : String → Option σ}
    (hnext : nextKey first cs = .ok (.item (ps.flatMap Piece.text ++ '"' :: behind)))
    (hstep : ∀ key, (step s key behind).toOption = (o key).map (·, rest)) :
    (members step (fuel + 1) first s cs).toOption =
      (Piece.decode ps).bind fun key ↦ (o (.ofList key)).bind fun s' ↦
        (members step fuel false s' rest).toOption := by
  rw [members, hnext]
  refine (toOption_bind (readQuoted _) _).trans ?_
  rw [readQuoted_pieces]
  cases Piece.decode ps with
  | none => rfl
  | some key =>
    refine (toOption_bind (step s (.ofList key) behind) _).trans ?_
    rw [hstep, Option.bind_some]
    cases o (.ofList key) <;> rfl

theorem foldlM_memberValues_cons (effect : σ → String × Json → Option σ) (s : σ) (key : Key)
    (w : Written) (ms : List (Key × Written)) :
    ((memberValues ((key, w) :: ms)).bind fun ps ↦ ps.foldlM effect s) =
      (Piece.decode key.name).bind fun name ↦
        (w.value?.bind fun v ↦ effect s (.ofList name, v)).bind fun s' ↦
          (memberValues ms).bind fun ps ↦ ps.foldlM effect s' := by
  rw [memberValues]
  cases Piece.decode key.name with
  | none => rfl
  | some name =>
    cases w.value? with
    | none => rfl
    | some v =>
      cases memberValues ms with
      | none => simp
      | some ps => simp

/-- From behind any key, the step reads the value of this member and does with it what the effect
says. -/
def Performs (step : σ → String → Reader σ) (effect : σ → String × Json → Option σ)
    (m : Key × Written) : Prop :=
  ∀ s key, Settles (step s key) (m.1.body m.2.text) (m.2.value?.bind fun v ↦ effect s (key, v))

theorem members_texts (h : ∀ m ∈ ms, Performs step effect m) (hb : AllBlank b)
    (hfuel : ms.length < fuel) (rest : List Char) :
    (members step fuel false s
        (b ++ ((memberTexts ms).flatMap (',' :: ·) ++ '\x7d' :: rest))).toOption =
      ((memberValues ms).bind fun ps ↦ ps.foldlM effect s).map (·, rest) := by
  induction ms generalizing b fuel s with
  | nil =>
    obtain ⟨fuel, rfl⟩ := Nat.exists_eq_succ_of_ne_zero (Nat.ne_zero_of_lt hfuel)
    rw [members, nextKey_append_blank hb]
    rfl
  | cons m ms ih =>
    obtain ⟨key, w⟩ := m
    obtain ⟨fuel, rfl⟩ := Nat.exists_eq_succ_of_ne_zero (Nat.ne_zero_of_lt hfuel)
    have hstep (name : String) := h (key, w) (by simp) s name _
      (ends_behind key.gap.after.blank (.inr rfl) (memberTexts ms) rest)
    have htail := fun m (hm : m ∈ ms) ↦ h m (List.mem_cons_of_mem _ hm)
    have hmore (s : σ) := ih htail key.gap.after.blank (Nat.lt_of_succ_lt_succ hfuel) (s := s)
    have hnext := nextKey_append_blank hb false
    simp only [memberTexts, List.flatMap_cons, Key.member, List.cons_append, List.append_assoc]
    rw [toOption_members_item ((hnext _).trans (nextKey_comma key.before.blank)) hstep]
    simp only [hmore, foldlM_memberValues_cons, Option.map_bind, Function.comp_def]

theorem allMembers_text (h : ∀ m ∈ ms, Performs step effect m) (s : σ) (inner : Blanks)
    (rest : List Char) :
    (allMembers step s (inner.chars ++ (joined (memberTexts ms) ++ '\x7d' :: rest))).toOption =
      ((memberValues ms).bind fun ps ↦ ps.foldlM effect s).map (·, rest) := by
  cases ms with
  | nil =>
    rw [allMembers, members, nextKey_append_blank inner.blank]
    rfl
  | cons m ms =>
    obtain ⟨key, w⟩ := m
    have hstep (name : String) := h (key, w) (by simp) s name _
      (ends_behind key.gap.after.blank (.inr rfl) (memberTexts ms) rest)
    have hlength := length_le_length_behind (memberTexts ms)
    rw [length_memberTexts] at hlength
    have hnext := nextKey_append_blank inner.blank true
    simp only [memberTexts, joined, Key.member, List.cons_append, List.append_assoc]
    rw [allMembers]
    generalize hfuel : List.length _ = fuel
    have hmany : ms.length < fuel := by
      rw [← hfuel]
      simp only [List.length_append, List.length_cons]
      omega
    have htail := fun m (hm : m ∈ ms) ↦ h m (List.mem_cons_of_mem _ hm)
    have hmore (s : σ) := members_texts htail key.gap.after.blank hmany rest (s := s)
    rw [toOption_members_item ((hnext _).trans (nextKey_first key.before.blank)) hstep]
    simp only [hmore, foldlM_memberValues_cons, Option.map_bind, Function.comp_def]

end Members

end Brackets

theorem colon_body (k : Key) (p rest : List Char) :
    colon (k.body p ++ rest) = .ok (k.gap.before.chars ++ (p ++ rest)) := by
  rw [Key.body, List.append_assoc, colon, skipBlanks_append k.after.blank]
  simp [skipBlanks, isBlank]

theorem performs_valueStep {depth : Nat} {m : Key × Written}
    (h : Settles (value depth) m.2.text m.2.value?) :
    Performs (valueStep depth) (fun ms p ↦ some (p :: ms)) m := by
  intro ms key rest hrest
  rw [valueStep, colon_body]
  refine (toOption_bind (value depth _) _).trans ?_
  rw [value_append_blank m.1.gap.before.blank, h rest hrest]
  cases m.2.value? <;> rfl

theorem foldlM_cons_eq_some (ps ms : List (String × Json)) :
    (ps.foldlM (fun ms m ↦ some (m :: ms)) ms : Option _) = some (ps.reverse ++ ms) := by
  induction ps generalizing ms with
  | nil => rfl
  | cons p ps ih =>
    refine (ih (p :: ms)).trans ?_
    simp

theorem value_square (depth : Nat) (cs : List Char) :
    value (depth + 1) ('[' :: cs) =
      (allItems (value depth) true cs).map fun (vs, rest) ↦ (arr vs, rest) := rfl

theorem value_curly (depth : Nat) (cs : List Char) :
    value (depth + 1) ('\x7b' :: cs) =
      (allMembers (valueStep depth) [] cs).map fun (ms, rest) ↦ (obj ms.reverse, rest) := rfl

/-- The text of a tree is read as its value; where it has none, it is refused. -/
theorem settles_value {depth : Nat} {w : Written} (h : w.Within depth) :
    Settles (value depth) w.text w.value? := by
  induction depth generalizing w with
  | zero => exact settles_value_of_isScalar (isScalar_of_within_zero h) 0
  | succ depth ih =>
    cases w with
    | array inner items =>
      intro rest _
      have hitems := allItems_text (fun i hi ↦ ih (h i hi)) inner rest
      simp only [text, List.cons_append, List.append_assoc, List.nil_append]
      rw [value_square, toOption_map, hitems, value?]
      cases itemValues items <;> rfl
    | object inner members =>
      intro rest _
      have hmembers := allMembers_text (fun m hm ↦ performs_valueStep (ih (h m hm))) [] inner rest
      simp only [text, List.cons_append, List.append_assoc, List.nil_append]
      rw [value_curly, toOption_map, hmembers, value?]
      simp only [foldlM_cons_eq_some, List.append_nil]
      cases memberValues members <;> simp
    | _ => exact settles_value_of_isScalar (by trivial) _

end Written

theorem toOption_readAll_source {α : Type} {reader : Reader α} {w : Written} {o : Option α}
    (hskip : SkipsBlanks reader) (h : Settles reader w.text o) (gap : Gap) :
    (readAll reader (w.source gap)).toOption = o := by
  have hends : Ends gap.after.chars :=
    fun c hc ↦ .inl (gap.after.blank c (List.mem_of_mem_head? hc))
  have hafter : skipBlanks gap.after.chars = [] := List.dropWhile_eq_nil_iff.2 gap.after.blank
  rw [readAll, Written.source, String.toList_ofList, Gap.around, hskip _ _ gap.before.blank,
    toOption_bind, h _ hends]
  cases o with
  | none => rfl
  | some x =>
    simp only [Option.map_some, Option.bind_some, hafter, if_true]
    rfl

end Achievements.Json
