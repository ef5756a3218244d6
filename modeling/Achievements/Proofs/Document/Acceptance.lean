import Achievements.Proofs.Binary64.Order
import Achievements.Proofs.Document.Schema

namespace Achievements

open Json (Mismatch)

namespace Condition

section Parts

def Field.decode : (f : Field) → Json → Except Mismatch f.Content
  | stat => stringOf
  | op => comparisonOf
  | value | min | max => Number.ofJson
  | mask | equals => maskOf

theorem Field.decode_eq_ok_iff {f : Field} {v : Json} {x : f.Content} :
    f.decode v = .ok x ↔ f.Describes v x := by
  cases f with
  | stat => exact stringOf_eq_ok_iff
  | op => exact comparisonOf_eq_ok_iff
  | value => exact Number.ofJson_eq_ok_iff
  | mask => exact maskOf_eq_ok_iff
  | equals => exact maskOf_eq_ok_iff
  | min => exact Number.ofJson_eq_ok_iff
  | max => exact Number.ofJson_eq_ok_iff

def Parts.get (p : Parts) : (f : Field) → Option f.Content
  | .stat => p.stat
  | .op => p.op
  | .value => p.value
  | .mask => p.mask
  | .equals => p.equals
  | .min => p.min
  | .max => p.max

def Parts.set (p : Parts) : (f : Field) → f.Content → Parts
  | .stat, s => { p with stat := some s }
  | .op, o => { p with op := some o }
  | .value, n => { p with value := some n }
  | .mask, m => { p with mask := some m }
  | .equals, m => { p with equals := some m }
  | .min, n => { p with min := some n }
  | .max, n => { p with max := some n }

variable {p q : Parts} {f g : Field} {v : Json} {k : Kind}

theorem Parts.get_empty (f : Field) : ({} : Parts).get f = none := by cases f <;> rfl

theorem Parts.get_set_self (p : Parts) (f : Field) (x : f.Content) :
    (p.set f x).get f = some x := by
  cases f <;> rfl

theorem Parts.get_set_of_ne (h : g ≠ f) (x : f.Content) : (p.set f x).get g = p.get g := by
  cases f <;> cases g <;> first | rfl | exact absurd rfl h

theorem Parts.has_eq (p : Parts) (f : Field) : p.has f = (p.get f).isSome := by cases f <;> rfl

theorem Parts.add_eq (p : Parts) (f : Field) (v : Json) :
    p.add f v = (f.decode v).map (p.set f) := by cases f <;> rfl

theorem Parts.add_eq_ok_iff :
    p.add f v = .ok q ↔ ∃ x, f.Describes v x ∧ p.set f x = q := by
  rw [add_eq]
  cases h : f.decode v with
  | error m => simp [Except.map, ← Field.decode_eq_ok_iff, h]
  | ok x => simp [Except.map, ← Field.decode_eq_ok_iff, h]

theorem Parts.finish_eq_ok_iff {c : Condition} :
    p.finish k = .ok c ↔ c.kind = k ∧ ∀ e ∈ c.contents, p.get e.1 = some e.2 := by
  have hrequired {α : Type} {name : String} {o : Option α} {x : α} :
      Json.required name o = .ok x ↔ o = some x := by
    cases o <;> simp [Json.required]
  cases k <;> cases c <;>
    simp [finish, except_bind_eq_ok_iff, hrequired, pure, Except.pure, kind, contents, get] <;> rfl

end Parts

section Members

variable {k : Kind} {f : Field} {key : String} {v : Json} {p q : Parts}

theorem Field.name_injective {f g : Field} (h : f.name = g.name) : f = g := by
  cases f <;> cases g <;> first | rfl | simp [name] at h

theorem Kind.find?_fields_eq_some_iff :
    k.fields.find? (·.name = key) = some f ↔ f ∈ k.fields ∧ f.name = key := by
  constructor
  · intro h
    exact ⟨List.mem_of_find?_eq_some h, by simpa using List.find?_some h⟩
  · rintro ⟨hf, rfl⟩
    obtain ⟨g, hg⟩ := Option.isSome_iff_exists.1
      (List.find?_isSome.2 ⟨f, hf, by simp⟩ : (k.fields.find? (·.name = f.name)).isSome)
    have hname : g.name = f.name := by simpa using List.find?_some hg
    rw [hg, Field.name_injective hname]

theorem Parts.addMember_known (hf : f ∈ k.fields) :
    p.addMember k (f.name, v) = .ok q ↔ p.get f = none ∧ ∃ x, f.Describes v x ∧ p.set f x = q := by
  rw [addMember, Kind.find?_fields_eq_some_iff.2 ⟨hf, rfl⟩]
  simp only [has_eq]
  cases hp : p.get f with
  | some x => simp
  | none => simp [add_eq_ok_iff]

theorem Parts.addMember_unknown (h : ∀ f ∈ k.fields, f.name ≠ key) :
    p.addMember k (key, v) = .ok p := by
  have hnone : k.fields.find? (·.name = key) = none := by
    rw [List.find?_eq_none]
    intro f hf
    simpa using h f hf
  rw [addMember, hnone]

theorem Parts.get_of_addMember (h : p.addMember k (key, v) = .ok q) (hne : f.name ≠ key) :
    q.get f = p.get f := by
  by_cases hknown : ∃ g ∈ k.fields, g.name = key
  · obtain ⟨g, hg, rfl⟩ := hknown
    obtain ⟨-, x, -, rfl⟩ := (addMember_known hg).1 h
    apply get_set_of_ne
    intro heq
    exact hne (heq ▸ rfl)
  · rw [addMember_unknown (by simpa using hknown)] at h
    cases h
    rfl

variable {ms : List (String × Json)}

theorem Parts.get_of_foldlM (h : ms.foldlM (addMember k) p = .ok q)
    (hkeys : (ms.map Prod.fst).Nodup) (hf : f ∈ k.fields) :
    (∀ v, (f.name, v) ∈ ms → ∃ x, f.Describes v x ∧ q.get f = some x) ∧
      (f.name ∉ ms.map Prod.fst → q.get f = p.get f) := by
  induction ms generalizing p with
  | nil =>
    cases h
    simp
  | cons m ms ih =>
    obtain ⟨key, w⟩ := m
    rw [List.foldlM_cons, except_bind_eq_ok_iff] at h
    obtain ⟨p', hadd, hrest⟩ := h
    rw [List.map_cons, List.nodup_cons] at hkeys
    obtain ⟨hin, hout⟩ := ih hrest hkeys.2
    by_cases hname : f.name = key
    · subst hname
      obtain ⟨-, x, hx, rfl⟩ := (addMember_known hf).1 hadd
      constructor
      · intro v hv
        rcases List.mem_cons.1 hv with heq | hv
        · obtain rfl : v = w := congrArg Prod.snd heq
          exact ⟨x, hx, by rw [hout hkeys.1, get_set_self]⟩
        · exact absurd (List.mem_map.2 ⟨_, hv, rfl⟩) hkeys.1
      · intro hfresh
        simp at hfresh
    · have hkeep := get_of_addMember hadd hname
      constructor
      · intro v hv
        rcases List.mem_cons.1 hv with heq | hv
        · exact absurd (congrArg Prod.fst heq) hname
        · exact hin v hv
      · intro hfresh
        rw [← hkeep]
        apply hout
        intro hmem
        exact hfresh (List.mem_cons_of_mem _ hmem)

theorem Parts.exists_foldlM (hkeys : (ms.map Prod.fst).Nodup)
    (h : ∀ f ∈ k.fields, ∀ v, (f.name, v) ∈ ms → p.get f = none ∧ ∃ x, f.Describes v x) :
    ∃ q, ms.foldlM (addMember k) p = .ok q := by
  induction ms generalizing p with
  | nil => exact ⟨p, rfl⟩
  | cons m ms ih =>
    obtain ⟨key, w⟩ := m
    rw [List.map_cons, List.nodup_cons] at hkeys
    have htail : ∀ f ∈ k.fields, ∀ v, (f.name, v) ∈ ms → p.get f = none ∧ ∃ x, f.Describes v x :=
      fun f hf v hv ↦ h f hf v (List.mem_cons_of_mem _ hv)
    simp only [List.foldlM_cons, except_bind_eq_ok_iff]
    by_cases hknown : ∃ f ∈ k.fields, f.name = key
    · obtain ⟨f, hf, rfl⟩ := hknown
      obtain ⟨hnone, x, hx⟩ := h f hf w List.mem_cons_self
      obtain ⟨q, hq⟩ : ∃ q, ms.foldlM (addMember k) (p.set f x) = .ok q := by
        apply ih hkeys.2
        intro g hg v hv
        have hne : g ≠ f := by
          intro heq
          subst heq
          exact hkeys.1 (List.mem_map.2 ⟨_, hv, rfl⟩)
        rw [get_set_of_ne hne]
        exact htail g hg v hv
      exact ⟨q, p.set f x, (addMember_known hf).2 ⟨hnone, x, hx, rfl⟩, hq⟩
    · obtain ⟨q, hq⟩ := ih hkeys.2 htail
      exact ⟨q, p, addMember_unknown (by simpa using hknown), hq⟩

theorem ofMembers_eq_ok_iff {c : Condition} (hkeys : (ms.map Prod.fst).Nodup) :
    ofMembers k ms = .ok c ↔
      c.kind = k ∧ ∀ e ∈ c.contents, ∃ v, (e.1.name, v) ∈ ms ∧ e.1.Describes v e.2 := by
  rw [ofMembers, except_bind_eq_ok_iff]
  simp only [Parts.finish_eq_ok_iff]
  have hfield {e : (f : Field) × f.Content} (he : e ∈ c.contents) : e.1 ∈ c.kind.fields := by
    rw [← map_contents]
    exact List.mem_map_of_mem he
  constructor
  · rintro ⟨q, hq, rfl, hget⟩
    refine ⟨rfl, fun e he ↦ ?_⟩
    obtain ⟨hin, hout⟩ := Parts.get_of_foldlM hq hkeys (hfield he)
    by_cases hname : e.1.name ∈ ms.map Prod.fst
    · obtain ⟨⟨key, v⟩, hv, hkey⟩ := List.mem_map.1 hname
      obtain rfl : key = e.1.name := hkey
      obtain ⟨x, hx, hgetx⟩ := hin v hv
      rw [hget e he, Option.some.injEq] at hgetx
      exact ⟨v, hv, hgetx ▸ hx⟩
    · have hnone := hout hname
      rw [hget e he, Parts.get_empty] at hnone
      cases hnone
  · rintro ⟨rfl, hall⟩
    obtain ⟨q, hq⟩ : ∃ q, ms.foldlM (Parts.addMember c.kind) {} = .ok q := by
      apply Parts.exists_foldlM hkeys
      intro f hf v hv
      rw [← map_contents] at hf
      obtain ⟨e, he, rfl⟩ := List.mem_map.1 hf
      obtain ⟨w, hw, hx⟩ := hall e he
      rw [Json.eq_of_mem_of_nodup hkeys hv hw]
      exact ⟨Parts.get_empty _, e.2, hx⟩
    refine ⟨q, hq, rfl, fun e he ↦ ?_⟩
    obtain ⟨v, hv, hx⟩ := hall e he
    obtain ⟨y, hy, hgety⟩ := (Parts.get_of_foldlM hq hkeys (hfield he)).1 v hv
    rw [← Field.decode_eq_ok_iff] at hx hy
    rw [hx] at hy
    rw [hgety, Except.ok.inj hy]

end Members

section Items

variable {k : Kind} {p q : Parts} {vs : List Json} {n : Nat}

theorem Parts.get_of_addItems {fs : List Field} {f : Field}
    (h : addItems k fs n p vs = .ok q) (hf : f ∉ fs) : q.get f = p.get f := by
  induction fs generalizing n p vs with
  | nil =>
    cases vs with
    | nil =>
      cases h
      rfl
    | cons v vs => cases h
  | cons g fs ih =>
    cases vs with
    | nil => cases h
    | cons v vs =>
      rw [addItems, except_bind_eq_ok_iff] at h
      obtain ⟨p', hadd, hrest⟩ := h
      obtain ⟨x, -, rfl⟩ := add_eq_ok_iff.1 hadd
      rw [List.mem_cons, not_or] at hf
      rw [ih hrest hf.2, get_set_of_ne hf.1]

theorem Parts.addItems_iff {es : List ((f : Field) × f.Content)} (hfields : (es.map (·.1)).Nodup) :
    (∃ q, addItems k (es.map (·.1)) n p vs = .ok q ∧ ∀ e ∈ es, q.get e.1 = some e.2) ↔
      List.Forall₂ (fun e v ↦ e.1.Describes v e.2) es vs := by
  induction es generalizing n p vs with
  | nil => cases vs <;> simp [addItems]
  | cons e es ih =>
    cases vs with
    | nil => simp [addItems]
    | cons v vs =>
      rw [List.map_cons, List.nodup_cons] at hfields
      simp only [List.map_cons, addItems, except_bind_eq_ok_iff, List.forall₂_cons]
      constructor
      · rintro ⟨q, ⟨p', hadd, hrest⟩, hget⟩
        obtain ⟨x, hx, rfl⟩ := add_eq_ok_iff.1 hadd
        have hq := get_of_addItems hrest hfields.1
        rw [hget e List.mem_cons_self, get_set_self, Option.some.injEq] at hq
        refine ⟨hq ▸ hx, (ih hfields.2).1 ⟨q, hrest, fun d hd ↦ ?_⟩⟩
        exact hget d (List.mem_cons_of_mem _ hd)
      · rintro ⟨hx, hvs⟩
        obtain ⟨q, hrest, hget⟩ := (ih hfields.2 (n := n + 1) (p := p.set e.1 e.2)).2 hvs
        refine ⟨q, ⟨_, add_eq_ok_iff.2 ⟨e.2, hx, rfl⟩, hrest⟩, fun d hd ↦ ?_⟩
        rcases List.mem_cons.1 hd with rfl | hd
        · rw [get_of_addItems hrest hfields.1, get_set_self]
        · exact hget d hd

theorem ofItems_eq_ok_iff {c : Condition} :
    ofItems k vs = .ok c ↔
      c.kind = k ∧ List.Forall₂ (fun e v ↦ e.1.Describes v e.2) c.contents vs := by
  have hnodup : (c.contents.map (·.1)).Nodup := by
    rw [map_contents]
    cases c.kind <;> decide
  rw [ofItems, except_bind_eq_ok_iff]
  simp only [Parts.finish_eq_ok_iff]
  constructor
  · rintro ⟨q, hq, rfl, hget⟩
    rw [← map_contents] at hq
    exact ⟨rfl, (Parts.addItems_iff hnodup).1 ⟨q, hq, hget⟩⟩
  · rintro ⟨rfl, hvs⟩
    obtain ⟨q, hq, hget⟩ := (Parts.addItems_iff hnodup (k := c.kind) (n := 0) (p := {})).2 hvs
    rw [map_contents] at hq
    exact ⟨q, hq, rfl, hget⟩

end Items

theorem Field.name_ne_type (f : Field) : f.name ≠ "type" := by cases f <;> decide

theorem ofJson_obj_eq_ok_iff {ms : List (String × Json)} {c : Condition}
    (hkeys : (ms.map Prod.fst).Nodup) :
    ofJson (.obj ms) = .ok c ↔ ("type", .str c.tag) ∈ ms ∧
      ∀ e ∈ c.contents, ∃ v, (e.1.name, v) ∈ ms ∧ e.1.Describes v e.2 := by
  have hrest : ((ms.filter (·.1 ≠ "type")).map Prod.fst).Nodup :=
    (List.filter_sublist.map Prod.fst).nodup hkeys
  have hmem (f : Field) (v : Json) : (f.name, v) ∈ ms.filter (·.1 ≠ "type") ↔ (f.name, v) ∈ ms := by
    simp [List.mem_filter, f.name_ne_type]
  rw [← Json.lookup_eq_some_iff_mem hkeys]
  cases hw : ms.lookup "type" with
  | none => simp [ofJson, hw, bind, Except.bind]
  | some w =>
    simp only [ofJson, hw, except_bind_eq_ok_iff, ofMembers_eq_ok_iff hrest, hmem,
      Option.some.injEq]
    constructor
    · rintro ⟨k, hk, rfl, hfields⟩
      exact ⟨kindOf_eq_ok_iff.1 hk, hfields⟩
    · rintro ⟨htype, hfields⟩
      exact ⟨c.kind, kindOf_eq_ok_iff.2 htype, rfl, hfields⟩

theorem ofJson_arr_eq_ok_iff {v : Json} {vs : List Json} {c : Condition} :
    ofJson (.arr (v :: vs)) = .ok c ↔
      v = .str c.tag ∧ List.Forall₂ (fun e v ↦ e.1.Describes v e.2) c.contents vs := by
  simp only [ofJson, except_bind_eq_ok_iff, ofItems_eq_ok_iff]
  constructor
  · rintro ⟨k, hk, rfl, hfields⟩
    exact ⟨kindOf_eq_ok_iff.1 hk, hfields⟩
  · rintro ⟨htype, hfields⟩
    exact ⟨c.kind, kindOf_eq_ok_iff.2 htype, rfl, hfields⟩

theorem ofJson_eq_ok_iff {v : Json} {c : Condition} (h : v.DistinctKeys) :
    ofJson v = .ok c ↔ Describes v c := by
  constructor
  · intro hc
    cases v with
    | obj ms =>
      obtain ⟨htype, hfields⟩ := (ofJson_obj_eq_ok_iff h.1).1 hc
      exact .object htype hfields
    | arr items =>
      cases items with
      | nil => cases hc
      | cons w ws =>
        obtain ⟨rfl, hfields⟩ := ofJson_arr_eq_ok_iff.1 hc
        exact .array hfields
    | _ => cases hc
  · intro hc
    cases hc with
    | object type fields => exact (ofJson_obj_eq_ok_iff h.1).2 ⟨type, fields⟩
    | array fields => exact ofJson_arr_eq_ok_iff.2 ⟨rfl, fields⟩

end Condition

namespace Number

theorem isFinite_ofInt (n : Json.Integer) : (Binary64.ofInt n.val).isFinite = true := by
  apply Binary64.isFinite_ofInt_of_natAbs_le
  have hlower := n.lower
  have hupper := n.upper
  have hpow : Binary64.twoPow 64 = 0x10000000000000000 := by decide
  omega

theorem Describes.isFinite {v : Json} {n : Number} (h : Describes v n) : n.isFinite = true := by
  cases h with
  | int exact => rfl
  | @wide n wide => exact isFinite_ofInt n
  | float x => rfl

end Number

namespace Condition

theorem Describes.exists_value {v : Json} {c : Condition} (h : Describes v c)
    {e : (f : Field) × f.Content} (he : e ∈ c.contents) : ∃ w, e.1.Describes w e.2 := by
  cases h with
  | object type fields =>
    obtain ⟨w, -, hw⟩ := fields e he
    exact ⟨w, hw⟩
  | @array vs c fields =>
    generalize c.contents = es at fields he
    induction fields with
    | nil => cases he
    | cons hfield _ ih =>
      rcases List.mem_cons.1 he with rfl | he
      · exact ⟨_, hfield⟩
      · exact ih he

theorem Describes.finite {v : Json} {c : Condition} (h : Describes v c) : c.Finite := by
  intro n hn
  cases c with
  | compare s op m =>
    obtain rfl : n = m := by simpa [numbers] using hn
    obtain ⟨w, hw⟩ := h.exists_value (e := ⟨.value, n⟩) (by simp [contents])
    exact Number.Describes.isFinite hw
  | bitEq s m e => cases hn
  | bitNe s m => cases hn
  | range s lo hi =>
    rcases List.mem_pair.1 hn with rfl | rfl
    · obtain ⟨w, hw⟩ := h.exists_value (e := ⟨.min, n⟩) (by simp [contents])
      exact Number.Describes.isFinite hw
    · obtain ⟨w, hw⟩ := h.exists_value (e := ⟨.max, n⟩) (by simp [contents])
      exact Number.Describes.isFinite hw

end Condition

namespace Conjunction

/-- A list of conditions that are described one by one. Other members do not matter. -/
def Describes (v : Json) (c : Conjunction) : Prop :=
  ∃ vs, v.get? "conditions" = some (.arr vs) ∧ List.Forall₂ Condition.Describes vs c.conditions

theorem mapM_ofJson_eq_ok_iff {vs : List Json} {cs : List Condition}
    (h : ∀ v ∈ vs, v.DistinctKeys) :
    vs.mapM Condition.ofJson = .ok cs ↔ List.Forall₂ Condition.Describes vs cs := by
  induction vs generalizing cs with
  | nil => cases cs <;> simp [pure, Except.pure]
  | cons v vs ih =>
    have hv := h v List.mem_cons_self
    have hvs : ∀ w ∈ vs, w.DistinctKeys := fun w hw ↦ h w (List.mem_cons_of_mem _ hw)
    simp only [List.mapM_cons, except_bind_eq_ok_iff, Condition.ofJson_eq_ok_iff hv, ih hvs]
    cases cs <;> simp [pure, Except.pure]

theorem conditionsOf_eq_ok_iff {v : Json} {cs : List Condition} (h : v.DistinctKeys) :
    conditionsOf v = .ok cs ↔ Describes v ⟨cs⟩ := by
  simp only [conditionsOf, Describes]
  cases hw : v.get? "conditions" with
  | none => simp
  | some w =>
    cases w with
    | arr vs =>
      have hvs : ∀ u ∈ vs, u.DistinctKeys := Json.distinctItems_iff.1 (h.of_get? hw)
      simp [mapM_ofJson_eq_ok_iff hvs]
    | _ => simp

theorem ofValue_of_type {v : Json} (h : v.get? "type" = some (.str "and")) :
    ofValue v = match conditionsOf v with
      | .ok cs => .ok ⟨cs⟩
      | .error m => .error (.json (.mismatch m)) := by
  rw [ofValue, h]
  rfl

theorem ofValue_of_other_type {v : Json} (h : v.get? "type" ≠ some (.str "and")) :
    ofValue v = .error .noType ∨ ∃ w, ofValue v = .error (.otherType w) := by
  rw [ofValue]
  cases htype : (v.get? "type").bind Json.str? with
  | none => exact .inl rfl
  | some w =>
    have hw : w ≠ "and" := by
      intro hand
      obtain ⟨t, ht, hstr⟩ := Option.bind_eq_some_iff.1 htype
      cases t with
      | str s =>
        obtain rfl : s = w := Option.some.inj hstr
        exact h (hand ▸ ht)
      | _ => cases hstr
    refine .inr ⟨w, ?_⟩
    simp

theorem ofValue_eq_ok_iff {v : Json} {c : Conjunction} (h : v.DistinctKeys) :
    ofValue v = .ok c ↔ v.get? "type" = some (.str "and") ∧ Describes v c := by
  by_cases htype : v.get? "type" = some (.str "and")
  · rw [← conditionsOf_eq_ok_iff h, ofValue_of_type htype]
    cases c
    cases conditionsOf v <;> simp [htype]
  · rcases ofValue_of_other_type htype with hv | ⟨w, hv⟩ <;> simp [hv, htype]

theorem Describes.finite {v : Json} {c : Conjunction} (h : Describes v c) : c.Finite := by
  obtain ⟨vs, -, hvs⟩ := h
  intro d hd
  generalize c.conditions = cs at hvs hd
  induction hvs with
  | nil => cases hd
  | cons hfirst _ ih =>
    rcases List.mem_cons.1 hd with rfl | hd
    · exact hfirst.finite
    · exact ih hd

/-- Which values are documents. A value of another root type is refused as such, whatever else is in
it. Otherwise it is accepted exactly if it describes a conjunction, which is then the one that is
read and comes back from its own value, and it is refused for its content if it describes none. -/
theorem ofValue_iff_describes (v : Json) (h : v.DistinctKeys) :
    ((ofValue v = .error .noType ∨ ∃ w, ofValue v = .error (.otherType w)) ↔
        v.get? "type" ≠ some (.str "and")) ∧
      (∀ c, ofValue v = .ok c ↔ v.get? "type" = some (.str "and") ∧ Describes v c) ∧
      ((∃ m, ofValue v = .error (.json (.mismatch m))) ↔
        v.get? "type" = some (.str "and") ∧ ¬∃ c, Describes v c) ∧
      ∀ c, ofValue v = .ok c → ofValue c.toValue = .ok c := by
  refine ⟨⟨?_, ofValue_of_other_type⟩, fun c ↦ ofValue_eq_ok_iff h, ?_, ?_⟩
  · intro hv htype
    rw [ofValue_of_type htype] at hv
    cases hcs : conditionsOf v <;> simp [hcs] at hv
  · by_cases htype : v.get? "type" = some (.str "and")
    · have hnone : (∃ c, Describes v c) ↔ ∃ c, ofValue v = .ok c := by
        simp [ofValue_eq_ok_iff h, htype]
      rw [hnone, ofValue_of_type htype]
      cases conditionsOf v <;> simp [htype]
    · rcases ofValue_of_other_type htype with hv | ⟨w, hv⟩ <;> simp [hv, htype]
  · intro c hc
    exact ofValue_toValue ((ofValue_eq_ok_iff h).1 hc).2.finite

theorem accepts_both_spellings :
    let v : Json := .obj [("conditions", .arr [
      .obj [("value", .int ⟨0x8000000000000000, by decide, by decide⟩), ("note", .null),
        ("op", .obj [(">=", .null)]), ("type", .str "compare"), ("stat", .str "score")],
      .arr [.str "bit_ne", .str "mods", .int ⟨8, by decide, by decide⟩]]), ("type", .str "and")]
    v.DistinctKeys ∧ ofValue v =
      .ok ⟨[.compare "score" .atLeast (.float (.ofInt 0x8000000000000000)), .bitNe "mods" 8]⟩ := by
  intro v
  have h : v.DistinctKeys := by
    simp [v, Json.DistinctKeys, Json.DistinctItems, Json.DistinctMembers, Json.DistinctMember]
  refine ⟨h, ((ofValue_iff_describes v h).2.1 _).2 ⟨rfl, _, rfl, .cons ?_ (.cons ?_ .nil)⟩⟩
  · refine .object (by simp [Condition.tag]) ?_
    simp only [Condition.contents, List.forall_mem_cons]
    have hstat : Condition.Field.stat.Describes (.str "score") "score" := rfl
    have hop : Condition.Field.op.Describes (.obj [(">=", .null)]) .atLeast := .null .atLeast
    have hvalue : Condition.Field.value.Describes (.int ⟨0x8000000000000000, by decide, by decide⟩)
        (.float (.ofInt 0x8000000000000000)) := .wide (by decide)
    exact ⟨⟨_, by simp [Condition.Field.name], hstat⟩, ⟨_, by simp [Condition.Field.name], hop⟩,
      ⟨_, by simp [Condition.Field.name], hvalue⟩, by simp⟩
  · exact .array (c := .bitNe "mods" 8) (.cons rfl (.cons ⟨_, rfl, rfl⟩ .nil))

/-- An empty object is accepted in the place of null, so this operator is neither the word nor the
word with null in it. -/
theorem accepts_operator_with_empty_object :
    ofValue (.obj [("conditions", .arr [.obj [("op", .obj [("==", .obj [])]), ("stat", .str "sr"),
        ("type", .str "compare"), ("value", .int ⟨1, by decide, by decide⟩)]]),
      ("type", .str "and")]) = .ok ⟨[.compare "sr" .equal (.int 1)]⟩ ∧
    ∀ op : Comparison, Json.obj [("==", .obj [])] ≠ .str op.token ∧
      Json.obj [("==", .obj [])] ≠ .obj [(op.token, .null)] :=
  ⟨rfl, fun op ↦ ⟨by simp, by simp⟩⟩

end Conjunction

end Achievements
