import Achievements.Proofs.Json.Order
import Achievements.Proofs.Json.Written

namespace Achievements.Json

section Relations

variable {α β γ δ : Type} {r : α → β → Prop} {q : γ → δ → Prop} {a : Option α} {b : Option β}

theorem rel_bind {f : α → Option γ} {g : β → Option δ} (h : Option.Rel r a b)
    (hf : ∀ x y, r x y → Option.Rel q (f x) (g y)) : Option.Rel q (a.bind f) (b.bind g) := by
  cases h with
  | none => exact .none
  | some h => exact hf _ _ h

theorem rel_map {f : α → γ} {g : β → δ} (h : Option.Rel r a b)
    (hf : ∀ x y, r x y → q (f x) (g y)) : Option.Rel q (a.map f) (b.map g) := by
  cases h with
  | none => exact .none
  | some h => exact .some (hf _ _ h)

theorem rel_trans {s : β → γ → Prop} {t : α → γ → Prop} {c : Option γ} (hab : Option.Rel r a b)
    (hbc : Option.Rel s b c) (h : ∀ x y z, r x y → s y z → t x z) : Option.Rel t a c := by
  cases hab with
  | none =>
    cases hbc
    exact .none
  | some hxy =>
    cases hbc with
    | some hyz => exact .some (h _ _ _ hxy hyz)

theorem bind_eq_bind_of_rel {f : α → Option γ} {g : β → Option γ} (h : Option.Rel r a b)
    (hf : ∀ x y, a = some x → r x y → f x = g y) : a.bind f = b.bind g := by
  cases h with
  | none => rfl
  | some h => exact hf _ _ rfl h

theorem exists_of_rel_some {y : β} (h : Option.Rel r a (some y)) : ∃ x, a = some x ∧ r x y := by
  cases h with
  | some h => exact ⟨_, rfl, h⟩

theorem rel_refl {r : α → α → Prop} (h : ∀ x, r x x) (a : Option α) : Option.Rel r a a := by
  cases a with
  | none => exact .none
  | some x => exact .some (h x)

end Relations

theorem SameMembers.keys_eq {ms ns : List (String × Json)} (h : SameMembers ms ns) :
    ms.map Prod.fst = ns.map Prod.fst := by
  induction ms generalizing ns with
  | nil =>
    cases h
    rfl
  | cons m ms ih =>
    cases h with
    | cons _ h => simp [ih h]

theorem SameMembers.length_eq {ms ns : List (String × Json)} (h : SameMembers ms ns) :
    ms.length = ns.length := by
  simpa using congrArg List.length h.keys_eq

theorem SameMembers.exists_mem_iff {ms ns : List (String × Json)} (h : SameMembers ms ns)
    {P : Json → Prop} (hP : ∀ {v w}, Same v w → (P v ↔ P w)) (key : String) :
    (∃ v, (key, v) ∈ ms ∧ P v) ↔ ∃ w, (key, w) ∈ ns ∧ P w := by
  induction ms generalizing ns with
  | nil =>
    cases h
    exact Iff.rfl
  | cons m ms ih =>
    cases h with
    | cons hsame hrest => simp [or_and_right, exists_or, ih hrest, hP hsame]

mutual

theorem Same.distinctKeys : ∀ {v w : Json}, Same v w → v.DistinctKeys → w.DistinctKeys
  | _, _, .refl _, hv => hv
  | _, _, .arr hitems, hv => hitems.distinctItems hv
  | _, _, .obj hmembers hperm, hv => by
    have hvalues := distinctMembers_iff.1 (hmembers.distinctMembers hv.2)
    refine ⟨?_, distinctMembers_iff.2 fun m hm ↦ hvalues m (hperm.mem_iff.2 hm)⟩
    rw [← (hperm.map Prod.fst).nodup_iff, ← hmembers.keys_eq]
    exact hv.1

theorem SameItems.distinctItems :
    ∀ {vs ws : List Json}, SameItems vs ws → DistinctItems vs → DistinctItems ws
  | _, _, .nil, _ => trivial
  | _, _, .cons hfirst hrest, h => ⟨hfirst.distinctKeys h.1, hrest.distinctItems h.2⟩

theorem SameMembers.distinctMembers :
    ∀ {ms ns : List (String × Json)}, SameMembers ms ns → DistinctMembers ms → DistinctMembers ns
  | _, _, .nil, _ => trivial
  | _, _, .cons hfirst hrest, h => ⟨hfirst.distinctKeys h.1, hrest.distinctMembers h.2⟩

end

namespace Written

mutual

/-- The same text but for the order of members, the blanks and the spelling of keys. -/
inductive Rearranged : Written → Written → Prop
  | refl (w : Written) : Rearranged w w
  | array {inner inner' : Blanks} {is js : List (Gap × Written)} :
      RearrangedItems is js → Rearranged (.array inner is) (.array inner' js)
  | object {inner inner' : Blanks} {ms ns ks : List (Key × Written)} :
      RearrangedMembers ms ns → ns.Perm ks → Rearranged (.object inner ms) (.object inner' ks)

inductive RearrangedItems : List (Gap × Written) → List (Gap × Written) → Prop
  | nil : RearrangedItems [] []
  | cons {gap gap' : Gap} {v w : Written} {is js : List (Gap × Written)} :
      Rearranged v w → RearrangedItems is js → RearrangedItems ((gap, v) :: is) ((gap', w) :: js)

inductive RearrangedMembers : List (Key × Written) → List (Key × Written) → Prop
  | nil : RearrangedMembers [] []
  | cons {key key' : Key} {v w : Written} {ms ns : List (Key × Written)} :
      Piece.decode key.name = Piece.decode key'.name → Rearranged v w → RearrangedMembers ms ns →
      RearrangedMembers ((key, v) :: ms) ((key', w) :: ns)

end

def memberValue? (m : Key × Written) : Option (String × Json) :=
  (Piece.decode m.1.name).bind fun name ↦ m.2.value?.map fun v ↦ (.ofList name, v)

theorem memberValues_cons (m : Key × Written) (ms : List (Key × Written)) :
    memberValues (m :: ms) = (memberValue? m).bind fun p ↦ (memberValues ms).map (p :: ·) := by
  obtain ⟨key, w⟩ := m
  simp only [memberValues, memberValue?]
  cases Piece.decode key.name <;> cases w.value? <;> cases memberValues ms <;> rfl

theorem perm_memberValues {ms ns : List (Key × Written)} (h : ms.Perm ns) :
    Option.Rel List.Perm (memberValues ms) (memberValues ns) := by
  induction h with
  | nil => exact .some (.refl _)
  | cons m _ ih =>
    simp only [memberValues_cons]
    refine rel_bind (rel_refl (fun _ ↦ rfl) (memberValue? m)) ?_
    rintro p _ rfl
    exact rel_map ih fun _ _ h ↦ h.cons p
  | swap m n ms =>
    simp only [memberValues_cons]
    cases memberValue? m with
    | none => cases memberValue? n <;> exact .none
    | some p =>
      cases memberValue? n with
      | none => exact .none
      | some q =>
        cases memberValues ms with
        | none => exact .none
        | some ps => exact .some (.swap p q ps)
  | trans _ _ ih₁ ih₂ => exact rel_trans ih₁ ih₂ fun _ _ _ ↦ List.Perm.trans

theorem rel_memberValue? {key key' : Key} {v w : Written}
    (hname : Piece.decode key.name = Piece.decode key'.name)
    (h : Option.Rel Same v.value? w.value?) :
    Option.Rel (fun p q ↦ p.1 = q.1 ∧ Same p.2 q.2) (memberValue? (key, v))
      (memberValue? (key', w)) := by
  rw [memberValue?, memberValue?, hname]
  refine rel_bind (rel_refl (fun _ ↦ rfl) _) ?_
  rintro name _ rfl
  exact rel_map h fun _ _ hsame ↦ ⟨rfl, hsame⟩

mutual

theorem Rearranged.rel_value? :
    ∀ {v w : Written}, Rearranged v w → Option.Rel Same v.value? w.value?
  | v, _, .refl _ => rel_refl .refl v.value?
  | _, _, .array hitems => rel_map hitems.rel_itemValues fun _ _ ↦ .arr
  | _, _, .object hmembers hperm => by
    have hsame : Option.Rel (fun ms ks ↦ Same (.obj ms) (.obj ks)) _ _ :=
      rel_trans hmembers.rel_memberValues (perm_memberValues hperm) fun _ _ _ ↦ .obj
    exact rel_map hsame fun _ _ h ↦ h

theorem RearrangedItems.rel_itemValues :
    ∀ {is js : List (Gap × Written)}, RearrangedItems is js →
      Option.Rel SameItems (itemValues is) (itemValues js)
  | _, _, .nil => .some .nil
  | _, _, .cons hfirst hrest =>
    rel_bind hfirst.rel_value? fun _ _ hsame ↦
      rel_bind hrest.rel_itemValues fun _ _ h ↦ .some (.cons hsame h)

theorem RearrangedMembers.rel_memberValues :
    ∀ {ms ns : List (Key × Written)}, RearrangedMembers ms ns →
      Option.Rel SameMembers (memberValues ms) (memberValues ns)
  | _, _, .nil => .some .nil
  | _, _, .cons hname hfirst hrest => by
    rw [memberValues_cons, memberValues_cons]
    refine rel_bind (rel_memberValue? hname hfirst.rel_value?) ?_
    rintro ⟨name, v⟩ ⟨_, w⟩ ⟨rfl, hsame⟩
    exact rel_map hrest.rel_memberValues fun _ _ h ↦ .cons hsame h

end

theorem Rearranged.distinctKeys {v w : Written} (h : Rearranged v w)
    (hv : ∀ u, v.value? = some u → u.DistinctKeys) :
    ∀ u, w.value? = some u → u.DistinctKeys := by
  intro u hu
  have hrel := h.rel_value?
  rw [hu] at hrel
  obtain ⟨t, ht, hsame⟩ := exists_of_rel_some hrel
  exact hsame.distinctKeys (hv t ht)

mutual

theorem Rearranged.within :
    ∀ {v w : Written}, Rearranged v w → ∀ {n : Nat}, v.Within n → w.Within n
  | _, _, .refl _, _, h => h
  | _, _, .array hitems, _ + 1, h => hitems.within h
  | _, _, .object hmembers hperm, _ + 1, h => fun m hm ↦ hmembers.within h m (hperm.mem_iff.2 hm)

theorem RearrangedItems.within :
    ∀ {is js : List (Gap × Written)}, RearrangedItems is js →
      ∀ {n : Nat}, (∀ i ∈ is, i.2.Within n) → ∀ j ∈ js, j.2.Within n
  | _, _, .nil, _, _ => by simp
  | _, _, .cons hfirst hrest, _, h => by
    rw [List.forall_mem_cons] at h ⊢
    exact ⟨hfirst.within h.1, hrest.within h.2⟩

theorem RearrangedMembers.within :
    ∀ {ms ns : List (Key × Written)}, RearrangedMembers ms ns →
      ∀ {n : Nat}, (∀ m ∈ ms, m.2.Within n) → ∀ m ∈ ns, m.2.Within n
  | _, _, .nil, _, _ => by simp
  | _, _, .cons _ hfirst hrest, _, h => by
    rw [List.forall_mem_cons] at h ⊢
    exact ⟨hfirst.within h.1, hrest.within h.2⟩

end

end Written

end Achievements.Json
