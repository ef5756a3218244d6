import Achievements.Document

namespace Achievements

def Number.isFinite : Number → Bool
  | int _ => true
  | float x => x.isFinite

def Condition.Finite (c : Condition) : Prop := ∀ n ∈ c.numbers, n.isFinite = true

def Conjunction.Finite (c : Conjunction) : Prop := ∀ d ∈ c.conditions, d.Finite

namespace Number

theorem ofJson_toJson {n : Number} (h : n.isFinite = true) : ofJson n.toJson = .ok n := by
  cases n with
  | int n =>
    have hrange : -0x8000000000000000 ≤ n.toInt ∧ n.toInt < 0x8000000000000000 :=
      ⟨n.le_toInt, n.toInt_lt⟩
    have hint : int64? n.toInt = some n := by
      rw [int64?, if_pos hrange, Int64.ofInt_toInt]
    rw [toJson, ofJson, Json.Integer.ofInt64, hint]
  | float x =>
    cases x with
    | fin x => rfl
    | nan => cases h
    | inf neg => cases h

theorem sorted_toJson (n : Number) : n.toJson.sorted = n.toJson := by
  cases n with
  | int n => rfl
  | float x => cases x <;> rfl

end Number

namespace Condition

theorem maskOf_ofUInt32 (m : UInt32) : maskOf (.int (.ofUInt32 m)) = .ok m := by
  have hlt := m.toNat_lt
  have hrange : 0 ≤ (m.toNat : Int) ∧ (m.toNat : Int) < 0x100000000 := by omega
  rw [maskOf, Json.Integer.ofUInt32, if_pos hrange]
  simp

theorem comparisonOf_toJson (op : Comparison) : comparisonOf op.toJson = .ok op := by
  cases op <;> rfl

def sortedPairs : Condition → List (String × Json)
  | compare s op v => [("op", op.toJson), ("stat", .str s), ("type", .str "compare"),
      ("value", v.toJson)]
  | bitEq s mask equals => [("equals", .int (.ofUInt32 equals)), ("mask", .int (.ofUInt32 mask)),
      ("stat", .str s), ("type", .str "bit_eq")]
  | bitNe s mask => [("mask", .int (.ofUInt32 mask)), ("stat", .str s), ("type", .str "bit_ne")]
  | range s lo hi => [("max", hi.toJson), ("min", lo.toJson), ("stat", .str s),
      ("type", .str "range")]

theorem sorted_toJson (c : Condition) : c.toJson.sorted = .obj c.sortedPairs := by
  cases c <;>
    simp only [toJson, Json.sorted, Json.sortedMembers, Json.sortedMember, Number.sorted_toJson,
      Comparison.toJson, Json.insertMember, sortedPairs, tag, stat, List.foldl_cons,
      List.foldl_nil, String.reduceLT, String.reduceEq, if_true, if_false]

section Members

-- The values of the members are left open: the checks on their sizes cannot be evaluated.
variable {s : String} {o v w : Json}

theorem ofMembers_compare {op : Comparison} {n : Number} (hop : comparisonOf o = .ok op)
    (hn : Number.ofJson v = .ok n) :
    ofMembers .compare [("op", o), ("stat", .str s), ("value", v)] = .ok (.compare s op n) := by
  simp [ofMembers, Parts.addMember, Kind.fields, Field.name, Parts.has, Parts.add, Parts.finish,
    stringOf, hop, hn, Json.required, bind, Except.bind, pure, Except.pure, Except.map]

theorem ofMembers_bitEq {mask equals : UInt32} (hequals : maskOf v = .ok equals)
    (hmask : maskOf w = .ok mask) :
    ofMembers .bitEq [("equals", v), ("mask", w), ("stat", .str s)] =
      .ok (.bitEq s mask equals) := by
  simp [ofMembers, Parts.addMember, Kind.fields, Field.name, Parts.has, Parts.add, Parts.finish,
    stringOf, hequals, hmask, Json.required, bind, Except.bind, pure, Except.pure, Except.map]

theorem ofMembers_bitNe {mask : UInt32} (hmask : maskOf v = .ok mask) :
    ofMembers .bitNe [("mask", v), ("stat", .str s)] = .ok (.bitNe s mask) := by
  simp [ofMembers, Parts.addMember, Kind.fields, Field.name, Parts.has, Parts.add, Parts.finish,
    stringOf, hmask, Json.required, bind, Except.bind, pure, Except.pure, Except.map]

theorem ofMembers_range {lo hi : Number} (hhi : Number.ofJson v = .ok hi)
    (hlo : Number.ofJson w = .ok lo) :
    ofMembers .range [("max", v), ("min", w), ("stat", .str s)] = .ok (.range s lo hi) := by
  simp [ofMembers, Parts.addMember, Kind.fields, Field.name, Parts.has, Parts.add, Parts.finish,
    stringOf, hhi, hlo, Json.required, bind, Except.bind, pure, Except.pure, Except.map]

end Members

theorem ofJson_obj {ms rest : List (String × Json)} {kind : Kind} {w : String}
    {r : Except Json.Mismatch Condition} (htype : ms.lookup "type" = some (.str w))
    (hkind : Json.choose Kind.words w = .ok kind) (hrest : ms.filter (·.1 ≠ "type") = rest)
    (hr : ofMembers kind rest = r) : ofJson (.obj ms) = r := by
  subst hrest
  simp only [ofJson, htype, kindOf, hkind, bind, Except.bind, hr]

theorem ofJson_sorted_toJson {c : Condition} (h : c.Finite) : ofJson c.toJson.sorted = .ok c := by
  rw [sorted_toJson]
  cases c with
  | compare s op v =>
    have hv := Number.ofJson_toJson (h v (by simp [numbers]))
    exact ofJson_obj rfl rfl rfl (ofMembers_compare (comparisonOf_toJson op) hv)
  | bitEq s mask equals =>
    exact ofJson_obj rfl rfl rfl (ofMembers_bitEq (maskOf_ofUInt32 equals) (maskOf_ofUInt32 mask))
  | bitNe s mask => exact ofJson_obj rfl rfl rfl (ofMembers_bitNe (maskOf_ofUInt32 mask))
  | range s lo hi =>
    have hlo := Number.ofJson_toJson (h lo (by simp [numbers]))
    have hhi := Number.ofJson_toJson (h hi (by simp [numbers]))
    exact ofJson_obj rfl rfl rfl (ofMembers_range hhi hlo)

end Condition

theorem Json.sortedItems_eq_map (vs : List Json) : sortedItems vs = vs.map sorted := by
  induction vs with
  | nil => rfl
  | cons v vs ih => rw [sortedItems, ih, List.map_cons]

namespace Conjunction

theorem mapM_ofJson {cs : List Condition} (h : ∀ c ∈ cs, c.Finite) :
    (cs.map (·.toJson.sorted)).mapM Condition.ofJson = .ok cs := by
  induction cs with
  | nil => rfl
  | cons c cs ih =>
    rw [List.map_cons, List.mapM_cons, Condition.ofJson_sorted_toJson (h c (by simp)),
      ih fun d hd ↦ h d (by simp [hd])]
    rfl

theorem toValue_eq (c : Conjunction) :
    c.toValue =
      .obj [("conditions", .arr (c.conditions.map (·.toJson.sorted))), ("type", .str "and")] := by
  simp only [toValue, toJson, Json.sorted, Json.sortedMembers, Json.sortedMember,
    Json.insertMember, Json.sortedItems_eq_map, List.map_map, Function.comp_def, List.foldl_cons,
    List.foldl_nil, String.reduceLT, if_true]

theorem conditionsOf_toValue (c : Conjunction) :
    conditionsOf c.toValue = (c.conditions.map (·.toJson.sorted)).mapM Condition.ofJson := by
  rw [toValue_eq, conditionsOf]
  simp only [Json.get?, List.reverse_cons, List.reverse_nil, List.nil_append, List.cons_append,
    List.lookup_cons, String.reduceBEq]

theorem type_toValue (c : Conjunction) : (c.toValue.get? "type").bind Json.str? = some "and" := by
  rw [toValue_eq]
  rfl

theorem ofValue_toValue {c : Conjunction} (h : c.Finite) : ofValue c.toValue = .ok c := by
  rw [ofValue, type_toValue, conditionsOf_toValue, mapM_ofJson h]
  rfl

end Conjunction

end Achievements
