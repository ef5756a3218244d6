import Achievements.Proofs.Document.Decoding

namespace Achievements

open Json (Mismatch)

namespace Number

theorem toJson_eq_null_iff (n : Number) : n.toJson = .null ↔ n.isFinite = false := by
  cases n with
  | int n => simp [toJson, isFinite]
  | float x => cases x <;> simp [toJson, Json.ofBinary64, isFinite, Binary64.isFinite]

theorem ofJson_toJson_of_not_finite {n : Number} (h : n.isFinite = false) :
    ofJson n.toJson = .error .noNumber := by
  rw [(toJson_eq_null_iff n).2 h]
  rfl

theorem ofJson_toJson_iff (n m : Number) :
    ofJson n.toJson = .ok m ↔ n.isFinite = true ∧ m = n := by
  cases h : n.isFinite with
  | true => simp [ofJson_toJson h, eq_comm]
  | false => simp [ofJson_toJson_of_not_finite h]

end Number

namespace Condition

section Members

variable {s : String} {o v w : Json} {m : Mismatch}

theorem ofMembers_compare_error {op : Comparison} (hop : comparisonOf o = .ok op)
    (hvalue : Number.ofJson v = .error m) :
    ofMembers .compare [("op", o), ("stat", .str s), ("value", v)] = .error m := by
  simp [ofMembers, Parts.addMember, Kind.fields, Field.name, Parts.has, Parts.add, stringOf, hop,
    hvalue, bind, Except.bind, Except.map]

theorem ofMembers_max_error (hmax : Number.ofJson v = .error m) :
    ofMembers .range [("max", v), ("min", w), ("stat", .str s)] = .error m := by
  simp [ofMembers, Parts.addMember, Kind.fields, Field.name, Parts.has, Parts.add, hmax, bind,
    Except.bind, Except.map]

theorem ofMembers_min_error {hi : Number} (hmax : Number.ofJson v = .ok hi)
    (hmin : Number.ofJson w = .error m) :
    ofMembers .range [("max", v), ("min", w), ("stat", .str s)] = .error m := by
  simp [ofMembers, Parts.addMember, Kind.fields, Field.name, Parts.has, Parts.add, hmax, hmin, bind,
    Except.bind, Except.map]

end Members

theorem ofJson_sorted_toJson_of_not_finite {c : Condition} (h : ¬c.Finite) :
    ofJson c.toJson.sorted = .error .noNumber := by
  rw [sorted_toJson]
  cases c with
  | compare s op v =>
    have hv : v.isFinite = false := by simpa [Finite, numbers] using h
    exact ofJson_obj rfl rfl rfl
      (ofMembers_compare_error (comparisonOf_toJson op) (Number.ofJson_toJson_of_not_finite hv))
  | bitEq s mask equals => simp [Finite, numbers] at h
  | bitNe s mask => simp [Finite, numbers] at h
  | range s lo hi =>
    -- keys are visited in order, so the upper end is looked at first
    cases hhi : hi.isFinite with
    | false =>
      exact ofJson_obj rfl rfl rfl
        (ofMembers_max_error (Number.ofJson_toJson_of_not_finite hhi))
    | true =>
      have hlo : lo.isFinite = false := by simpa [Finite, numbers, hhi] using h
      exact ofJson_obj rfl rfl rfl
        (ofMembers_min_error (Number.ofJson_toJson hhi) (Number.ofJson_toJson_of_not_finite hlo))

end Condition

namespace Conjunction

theorem mapM_ofJson_of_not_finite {cs : List Condition} (h : ¬∀ c ∈ cs, c.Finite) :
    (cs.map (·.toJson.sorted)).mapM Condition.ofJson = .error .noNumber := by
  induction cs with
  | nil => simp at h
  | cons c cs ih =>
    rw [List.map_cons, List.mapM_cons]
    by_cases hc : c.Finite
    · have hcs : ¬∀ d ∈ cs, d.Finite := by
        intro hall
        apply h
        intro d hd
        rcases List.mem_cons.1 hd with rfl | hd
        · exact hc
        · exact hall d hd
      rw [Condition.ofJson_sorted_toJson hc, ih hcs]
      rfl
    · rw [Condition.ofJson_sorted_toJson_of_not_finite hc]
      rfl

theorem ofValue_toValue_of_not_finite {c : Conjunction} (h : ¬c.Finite) :
    ofValue c.toValue = .error (.json (.mismatch .noNumber)) := by
  rw [ofValue, type_toValue, conditionsOf_toValue, mapM_ofJson_of_not_finite h]
  rfl

/-- The value of a conjunction is decoded to the conjunction exactly if every double in it is
finite, and to no other one: a double never comes back as an integer, nor an integer as a double.
Where a double is not finite, null stands in its place and the document is refused for it. -/
theorem ofValue_toValue_iff (c : Conjunction) :
    (∀ d, ofValue c.toValue = .ok d ↔ c.Finite ∧ d = c) ∧
      (ofValue c.toValue = .error (.json (.mismatch .noNumber)) ↔ ¬c.Finite) ∧
      ∀ n : Number, (n.toJson = .null ↔ n.isFinite = false) ∧
        ∀ m, Number.ofJson n.toJson = .ok m ↔ n.isFinite = true ∧ m = n := by
  refine ⟨?_, ?_, ?_⟩
  · intro d
    by_cases h : c.Finite
    · simp [ofValue_toValue h, h, eq_comm]
    · simp [ofValue_toValue_of_not_finite h, h]
  · by_cases h : c.Finite
    · simp [ofValue_toValue h, h]
    · simp [ofValue_toValue_of_not_finite h, h]
  · intro n
    exact ⟨Number.toJson_eq_null_iff n, Number.ofJson_toJson_iff n⟩

end Conjunction

end Achievements
