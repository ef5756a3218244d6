import Achievements.Proofs.Settings.Overlay
import Mathlib.Data.List.Basic

namespace Achievements

namespace Setting

/-- What a value assigns at the end of some names. Keys count in any case, and no order of the
members enters. -/
def Assigns : List String → Setting → Setting → Prop
  | [], v, w => v = w
  | n :: ns, table ms, w => ∃ m ∈ ms, lower m.1 = n ∧ Assigns ns m.2 w
  | _ :: _, _, _ => False

def beyond? : List Step → List String → Option (List String)
  | [], ns => some ns
  | .name m :: path, n :: ns => if lower m = n then beyond? path ns else none
  | _, _ => none

def AssignedBy (ns : List String) (a : String × Setting) (w : Setting) : Prop :=
  ∃ r, beyond? (route a.1) ns = some r ∧ Assigns r a.2 w

/-- What assignments to keys assign at the end of some names. -/
def Assigned (ns : List String) (as : Members) (w : Setting) : Prop := ∃ a ∈ as, AssignedBy ns a w

/-- What stands at a place after something was laid over it: one of the values assigned to it,
whichever comes last, or what stood there if there is none. -/
def Settles (P : Setting → Prop) (old new : Option Setting) : Prop :=
  (∃ w, P w ∧ new = some w) ∨ (∀ w, ¬ P w) ∧ new = old

def wellTyped (fits : Setting → Bool) : List String → Setting → Bool
  | [], v => fits v
  | n :: ns, table ms => ms.all fun m ↦ lower m.1 ≠ n || wellTyped fits ns m.2
  | _ :: _, _ => false

/-- Whether an assignment either turns off on the way along some names, or assigns what fits. -/
def proper (fits : Setting → Bool) (ns : List String) (a : String × Setting) : Bool :=
  misses ns (route a.1) || (beyond? (route a.1) ns).any (wellTyped fits · a.2)

section Merging

variable {P Q : Setting → Prop} {old mid new : Option Setting}

theorem Settles.congr (h : Settles P old new) (hPQ : ∀ w, Q w ↔ P w) : Settles Q old new := by
  rcases h with ⟨w, hw, rfl⟩ | ⟨hno, rfl⟩
  · exact .inl ⟨w, (hPQ w).2 hw, rfl⟩
  · exact .inr ⟨fun w hw ↦ hno w ((hPQ w).1 hw), rfl⟩

theorem Settles.trans (h : Settles P old mid) (h' : Settles Q mid new) :
    Settles (fun w ↦ P w ∨ Q w) old new := by
  rcases h' with ⟨w, hw, rfl⟩ | ⟨hno', rfl⟩
  · exact .inl ⟨w, .inr hw, rfl⟩
  · rcases h with ⟨w, hw, rfl⟩ | ⟨hno, rfl⟩
    · exact .inl ⟨w, .inl hw, rfl⟩
    · exact .inr ⟨fun w hw ↦ hw.elim (hno w) (hno' w), rfl⟩

theorem Settles.unchanged (h : ∀ w, ¬ P w) : Settles P old old := .inr ⟨h, rfl⟩

variable {fits : Setting → Bool} {ns r : List String}

theorem assigned_nil (w : Setting) : ¬ Assigned ns [] w := by simp [Assigned]

theorem assigned_cons {a : String × Setting} {as : Members} {w : Setting} :
    Assigned ns (a :: as) w ↔ AssignedBy ns a w ∨ Assigned ns as w := by simp [Assigned]

-- The members of a table are laid over what stands there one after another.
theorem settles_overlayAll {n : String} {ms : Members}
    (step : ∀ m ∈ ms, lower m.1 = n → ∀ base,
      Settles (Assigns ns m.2) (inner? base ns) (inner? (some (overlay base m.2)) ns))
    (base : Members) :
    Settles (Assigns (n :: ns) (table ms)) (inner? (base.lookup n) ns)
      (inner? ((overlayAll base ms).lookup n) ns) := by
  induction ms generalizing base with
  | nil => exact .unchanged (by simp [Assigns])
  | cons m ms ih =>
    rw [List.forall_mem_cons] at step
    have hrest := ih step.2 (overlayOne base m)
    rw [overlayAll]
    by_cases hm : lower m.1 = n
    · have hnew : (overlayOne base m).lookup n = some (overlay (base.lookup n) m.2) := by
        rw [overlayOne, hm, lookup_put_self]
      rw [hnew] at hrest
      exact ((step.1 hm _).trans hrest).congr fun w ↦ by simp [Assigns, hm]
    · have hold : (overlayOne base m).lookup n = base.lookup n := by
        rw [overlayOne, lookup_put_of_ne (Ne.symm hm)]
      rw [hold] at hrest
      exact hrest.congr fun w ↦ by simp [Assigns, hm]

theorem settles_overlay (hfits : ∀ ms, fits (table ms) = false) {v : Setting}
    (h : wellTyped fits ns v = true) (base : Option Setting) :
    Settles (Assigns ns v) (inner? base ns) (inner? (some (overlay base v)) ns) := by
  induction ns generalizing v base with
  | nil =>
    refine .inl ⟨v, rfl, ?_⟩
    cases v with
    | table ms =>
      rw [wellTyped, hfits] at h
      cases h
    | _ => rfl
  | cons n ns ih =>
    cases v with
    | table ms =>
      refine settles_overlayAll (fun m hm hn base ↦ ih ?_ base) (members base)
      simpa [hn] using List.all_eq_true.1 h m hm
    | _ => simp [wellTyped] at h

theorem settles_setAt (hfits : ∀ ms, fits (table ms) = false) {v : Setting} {path : List Step}
    (hpath : beyond? path ns = some r) (h : wellTyped fits r v = true) (base : Option Setting) :
    Settles (Assigns r v) (inner? base ns) (inner? (some (setAt base v path)) ns) := by
  induction path generalizing ns base with
  | nil =>
    cases hpath
    exact settles_overlay hfits h base
  | cons step path ih =>
    cases step with
    | index i => simp [beyond?] at hpath
    | name m =>
      cases ns with
      | nil => simp [beyond?] at hpath
      | cons n ns =>
        by_cases hm : lower m = n
        · simp only [beyond?, hm, if_true] at hpath
          simp only [setAt, inner?, members, hm, lookup_put_self]
          exact ih hpath _
        · simp [beyond?, hm] at hpath

theorem beyond?_of_misses {path : List Step} (h : misses ns path = true) :
    beyond? path ns = none := by
  induction path generalizing ns with
  | nil => simp [misses] at h
  | cons step path ih =>
    cases step with
    | index i => simp [beyond?]
    | name m =>
      cases ns with
      | nil => simp [misses] at h
      | cons n ns =>
        by_cases hm : lower m = n
        · simp only [beyond?, hm, if_true]
          exact ih (by simpa [misses, hm] using h)
        · simp [beyond?, hm]

theorem settles_set (hfits : ∀ ms, fits (table ms) = false) {a : String × Setting}
    (h : proper fits ns a = true) (ms : Members) :
    Settles (AssignedBy ns a) (inner? (some (table ms)) ns)
      (inner? (some (table (set ms a.1 a.2))) ns) := by
  rw [table_set]
  rcases Bool.or_eq_true_iff.1 h with h | h
  · rw [inner?_setAt_of_misses _ h]
    exact .unchanged (by simp [AssignedBy, beyond?_of_misses h])
  · obtain ⟨r, hr, hv⟩ := (Option.any_eq_true _ _).1 h
    exact (settles_setAt hfits hr hv _).congr fun w ↦ by simp [AssignedBy, hr]

/-- Whatever the order of a list of assignments, one of those that lead to a place decides it. -/
theorem settles_foldl_set (hfits : ∀ ms, fits (table ms) = false) {as : Members}
    (h : ∀ a ∈ as, proper fits ns a = true) (ms : Members) :
    Settles (Assigned ns as) (inner? (some (table ms)) ns)
      (inner? (some (table (as.foldl (fun ms a ↦ set ms a.1 a.2) ms))) ns) := by
  induction as generalizing ms with
  | nil => exact .unchanged assigned_nil
  | cons a as ih =>
    rw [List.forall_mem_cons] at h
    exact ((settles_set hfits h.1 ms).trans (ih h.2 _)).congr fun w ↦ assigned_cons

theorem beyond?_map_name (h : ∀ n ∈ ns, lower n = n) : beyond? (ns.map .name) ns = some [] := by
  induction ns with
  | nil => rfl
  | cons n ns ih =>
    rw [List.forall_mem_cons] at h
    rw [List.map_cons, beyond?, if_pos h.1, ih h.2]

theorem fits_of_assigns {v w : Setting} (h : wellTyped fits ns v = true) (hw : Assigns ns v w) :
    fits w = true := by
  induction ns generalizing v with
  | nil =>
    cases hw
    exact h
  | cons n ns ih =>
    cases v with
    | table ms =>
      obtain ⟨m, hm, hn, hmw⟩ := hw
      refine ih ?_ hmw
      simpa [hn] using List.all_eq_true.1 h m hm
    | _ => cases hw

theorem fits_of_assigned {as : Members} {w : Setting} (h : ∀ a ∈ as, proper fits ns a = true)
    (hw : Assigned ns as w) : fits w = true := by
  obtain ⟨a, ha, r, hr, hrw⟩ := hw
  rcases Bool.or_eq_true_iff.1 (h a ha) with hm | hp
  · rw [beyond?_of_misses hm] at hr
    cases hr
  · rw [hr] at hp
    exact fits_of_assigns hp hrw

end Merging

def enters (n : String) (a : String × Setting) : Bool := !misses [n] (route a.1)

theorem exists_enters_of_assigned {n : String} {ns : List String} {as : Members} {w : Setting}
    (h : Assigned (n :: ns) as w) : ∃ a ∈ as, enters n a = true := by
  obtain ⟨a, ha, r, hb, -⟩ := h
  refine ⟨a, ha, ?_⟩
  obtain ⟨m, path, hr⟩ := exists_route_eq a.1
  by_cases hm : lower m = n
  · simp [enters, hr, misses, hm]
  · simp [hr, beyond?, hm] at hb

theorem lookup_set_of_not_enters {n : String} {a : String × Setting} (h : enters n a = false)
    (ms : Members) : (set ms a.1 a.2).lookup n = ms.lookup n := by
  have hm : misses [n] (route a.1) = true := by simpa [enters] using h
  have hin := inner?_setAt_of_misses a.2 hm (some (table ms))
  rwa [← table_set] at hin

-- What is laid over a table on the way to something well typed is a table again.
theorem exists_lookup_set_of_enters {fits : Setting → Bool} {n k : String} {a : String × Setting}
    (hp : proper fits [n, k] a = true) (h : enters n a = true) (ms : Members) :
    ∃ rs, (set ms a.1 a.2).lookup n = some (table rs) := by
  obtain ⟨m, path, hr⟩ := exists_route_eq a.1
  rw [proper, hr] at hp
  have hm : lower m = n := by simpa [enters, hr, misses] using h
  have hset : (set ms a.1 a.2).lookup n = some (setAt (ms.lookup n) a.2 path) := by
    have ht := table_set ms a.1 a.2
    rw [hr, setAt, hm, table.injEq] at ht
    rw [ht]
    exact lookup_put_self _ _ _
  rw [hset]
  rcases path with _ | ⟨p | i, path⟩
  · have hv : wellTyped fits [k] a.2 = true := by simpa [misses, beyond?, hm] using hp
    cases hw : a.2 with
    | table rs => exact ⟨_, rfl⟩
    | _ => simp [hw, wellTyped] at hv
  · exact ⟨_, rfl⟩
  · simp [misses, beyond?, hm] at hp

theorem lookup_foldl_set {fits : Setting → Bool} {n k : String} {as : Members}
    (h : ∀ a ∈ as, proper fits [n, k] a = true) (ms : Members) :
    let merged := as.foldl (fun ms a ↦ set ms a.1 a.2) ms
    ((∀ a ∈ as, enters n a = false) → merged.lookup n = ms.lookup n) ∧
      ((∃ a ∈ as, enters n a = true) → ∃ rs, merged.lookup n = some (table rs)) := by
  induction as generalizing ms with
  | nil => simp
  | cons a as ih =>
    rw [List.forall_mem_cons] at h
    obtain ⟨hout, hin⟩ := ih h.2 (set ms a.1 a.2)
    constructor
    · intro hno
      rw [List.forall_mem_cons] at hno
      exact (hout hno.2).trans (lookup_set_of_not_enters hno.1 ms)
    · intro hsome
      by_cases hlater : ∃ a ∈ as, enters n a = true
      · exact hin hlater
      · have hno : ∀ a ∈ as, enters n a = false := by simpa using hlater
        have ha : enters n a = true := by
          obtain ⟨b, hb, hbn⟩ := hsome
          rcases List.mem_cons.1 hb with rfl | hb
          · exact hbn
          · exact absurd ⟨b, hb, hbn⟩ hlater
        obtain ⟨rs, hrs⟩ := exists_lookup_set_of_enters h.1 ha ms
        exact ⟨rs, (hout hno).trans hrs⟩

theorem steps_eq_names {cs : List Char} {ns : List String} (h : steps cs = some (ns.map .name)) :
    cs = ns.flatMap ('.' :: ·.toList) := by
  fun_induction steps cs generalizing ns with
  | case1 =>
    have hns : ns = [] := by simpa using h
    rw [hns]
    rfl
  | case3 cs _ _ ih =>
    obtain ⟨path, hpath, hcons⟩ := Option.map_eq_some_iff.1 h
    cases ns with
    | nil => cases hcons
    | cons n ns =>
      obtain ⟨hn, rfl⟩ := List.cons.inj hcons
      have hn : n.toList = cs.takeWhile isPathChar := by
        rw [← Step.name.inj hn, String.toList_ofList]
      rw [List.flatMap_cons, ← ih hpath, hn, List.cons_append, List.takeWhile_append_dropWhile]
  | case5 cs _ _ rest _ _ ih =>
    obtain ⟨i, -, hi⟩ := Option.bind_eq_some_iff.1 h
    obtain ⟨path, -, hcons⟩ := Option.map_eq_some_iff.1 hi
    cases ns <;> cases hcons
  | _ => cases h

-- A key is its names with points between them if it is a path of names, or else a name itself.
theorem toList_of_route {key n : String} {ns : List String}
    (h : route key = (n :: ns).map .name) : key.toList = n.toList ++ ns.flatMap ('.' :: ·.toList) := by
  have hname : route key = [.name key] → key.toList = n.toList ++ ns.flatMap ('.' :: ·.toList) := by
    intro hkey
    obtain ⟨hn, hns⟩ := List.cons.inj (hkey.symm.trans h)
    rw [List.map_eq_nil_iff.1 hns.symm, Step.name.inj hn]
    simp
  rw [route] at h hname
  cases hp : path? key with
  | none =>
    refine hname ?_
    rw [hp]
    rfl
  | some path =>
    rw [hp, Option.getD_some] at h
    subst h
    rw [path?] at hp
    split at hp
    · cases hp
    · obtain ⟨path, hpath, hcons⟩ := Option.map_eq_some_iff.1 hp
      obtain ⟨hn, rfl⟩ := List.cons.inj hcons
      have hn : n.toList = key.toList.takeWhile isPathChar := by
        rw [← Step.name.inj hn, String.toList_ofList]
      rw [hn, ← steps_eq_names hpath, List.takeWhile_append_dropWhile]

theorem exists_names_of_beyond? {path : List Step} {ns : List String}
    (h : beyond? path ns = some []) : ∃ ms : List String, path = ms.map .name ∧ ms.map lower = ns := by
  induction path generalizing ns with
  | nil =>
    cases h
    exact ⟨[], rfl, rfl⟩
  | cons step path ih =>
    cases step with
    | index i => simp [beyond?] at h
    | name m =>
      cases ns with
      | nil => simp [beyond?] at h
      | cons n ns =>
        by_cases hm : lower m = n
        · rw [beyond?, if_pos hm] at h
          obtain ⟨ms, rfl, rfl⟩ := ih h
          exact ⟨m :: ms, rfl, by rw [List.map_cons, hm]⟩
        · simp [beyond?, hm] at h

theorem lowerChar_lowerChar (c : Char) : lowerChar (lowerChar c) = lowerChar c := by
  by_cases hascii : c.toNat < 128
  · have hall : ∀ n < 128, lowerChar (lowerChar (Char.ofNat n)) = lowerChar (Char.ofNat n) := by
      decide
    rw [← Char.ofNat_toNat c]
    exact hall _ hascii
  · by_cases hk : c = '\u212A'
    · rw [hk]
      decide
    · have hlow : c.toLower = c := by
        refine dif_neg fun h ↦ hascii ?_
        exact Nat.lt_of_le_of_lt (UInt32.le_iff_toNat_le.1 h.2) (by decide)
      have hself : lowerChar c = c := by rw [lowerChar, if_neg hk, hlow]
      rw [hself, hself]

theorem lower_eq_self {s : String} (h : ∀ c ∈ s.toList, lowerChar c = c) : lower s = s := by
  rw [lower, List.map_congr_left h, List.map_id', String.ofList_toList]

end Setting

namespace Settings

open Setting

theorem Leaf.eq_key {f : Leaf} {key : String} (hlow : ∀ c ∈ key.toList, lowerChar c = c)
    (h : beyond? (route key) f.names = some []) : key = f.key := by
  obtain ⟨ms, hms, hnames⟩ := exists_names_of_beyond? h
  obtain ⟨n, path, hr⟩ := exists_route_eq key
  cases ms with
  | nil => cases hms.symm.trans hr
  | cons m ms =>
    have hkey := toList_of_route hms
    have hself : ∀ k ∈ m :: ms, lower k = k := by
      refine fun k hk ↦ lower_eq_self fun c hc ↦ hlow c ?_
      rw [hkey]
      rcases List.mem_cons.1 hk with rfl | hk
      · exact List.mem_append_left _ hc
      · exact List.mem_append_right _ (List.mem_flatMap.2 ⟨k, hk, List.mem_cons_of_mem _ hc⟩)
    rw [List.map_congr_left hself, List.map_id'] at hnames
    rw [← String.toList_inj, hkey]
    cases f <;> cases hnames <;> decide +kernel

end Settings

namespace Environment

open Setting Settings

def assignments (env : Environment) : Members :=
  env.filterMap fun x ↦ (key? x.1).map (·, guess x.2)

def valueAt? (key : String) (env : Environment) : Option String :=
  (env.reverse.find? (key? ·.1 = some key)).map Prod.snd

theorem mem_levels {c : Char} {cs : List Char} (h : c ∈ levels cs) : c = '.' ∨ c ∈ cs := by
  fun_induction levels cs with
  | case1 cs ih =>
    rcases List.mem_cons.1 h with rfl | h
    · exact .inl rfl
    · exact (ih h).imp_right fun h ↦ List.mem_cons_of_mem _ (List.mem_cons_of_mem _ h)
  | case2 d cs _ ih =>
    rcases List.mem_cons.1 h with rfl | h
    · exact .inr List.mem_cons_self
    · exact (ih h).imp_right (List.mem_cons_of_mem _)
  | case3 => cases h

theorem lowerChar_of_mem_key {name key : String} (h : key? name = some key) :
    ∀ c ∈ key.toList, lowerChar c = c := by
  unfold key? at h
  dsimp only at h
  split at h
  · cases h
    intro c hc
    rw [String.toList_ofList] at hc
    rcases mem_levels hc with rfl | hc
    · decide
    · obtain ⟨d, -, rfl⟩ := List.mem_map.1 (List.mem_of_mem_drop hc)
      exact lowerChar_lowerChar d
  · cases h

theorem valueAt?_cons (key : String) (x : String × String) (env : Environment) :
    valueAt? key (x :: env) =
      (valueAt? key env).or (if key? x.1 = some key then some x.2 else none) := by
  rw [valueAt?, List.reverse_cons, List.find?_append, Option.map_or]
  by_cases hx : key? x.1 = some key <;> simp [valueAt?, hx]

theorem any_eq_isSome_valueAt? (key : String) (env : Environment) :
    env.any (key? ·.1 = some key) = (valueAt? key env).isSome := by
  rw [valueAt?, Option.isSome_map, List.isSome_find?, List.any_reverse]

theorem exists_mem_counting_iff {env : Environment} {key value : String} :
    (∃ x ∈ env.counting, key? x.1 = some key ∧ x.2 = value) ↔ valueAt? key env = some value := by
  induction env with
  | nil => simp [counting, valueAt?]
  | cons x env ih =>
    rw [valueAt?_cons, counting]
    cases hx : key? x.1 with
    | none => simpa using ih
    | some k =>
      dsimp only
      rw [any_eq_isSome_valueAt?]
      by_cases hk : k = key
      · subst hk
        cases hlast : valueAt? k env with
        | some v =>
          rw [hlast] at ih
          simpa using ih
        | none =>
          rw [hlast] at ih
          rw [if_neg (by decide), List.exists_mem_cons_iff, ih]
          simp [hx]
      · have hno : (if some k = some key then some x.2 else none) = none := by simp [hk]
        rw [hno, Option.or_none, ← ih]
        split
        · rfl
        · simp [hx, hk]

theorem mem_assignments {a : String × Setting} {env : Environment} :
    a ∈ assignments env ↔ ∃ x ∈ env, ∃ key, key? x.1 = some key ∧ (key, guess x.2) = a := by
  simp [assignments]

theorem assignedBy_guess_iff {f : Leaf} {key value : String} {w : Setting}
    (hlow : ∀ c ∈ key.toList, lowerChar c = c) :
    AssignedBy f.names (key, guess value) w ↔ key = f.key ∧ w = guess value := by
  constructor
  · rintro ⟨r, hr, hw⟩
    cases r with
    | nil => exact ⟨f.eq_key hlow hr, Eq.symm hw⟩
    | cons n r =>
      have hscalar : ¬ Assigns (n :: r) (guess value) w := by
        obtain ⟨b, h⟩ | ⟨i, h⟩ | ⟨x, h⟩ | h := guess_cases value <;> simp [h, Assigns]
      exact absurd hw hscalar
  · rintro ⟨rfl, rfl⟩
    exact ⟨[], by rw [f.route_key, beyond?_map_name f.lower_of_mem_names], rfl⟩

/-- Variables assign to a leaf through its key alone. -/
theorem assigned_counting_iff {f : Leaf} {env : Environment} {w : Setting} :
    Assigned f.names (assignments env.counting) w ↔
      ∃ value, valueAt? f.key env = some value ∧ w = guess value := by
  constructor
  · rintro ⟨a, ha, hw⟩
    obtain ⟨x, hx, key, hk, rfl⟩ := mem_assignments.1 ha
    obtain ⟨rfl, rfl⟩ := (assignedBy_guess_iff (lowerChar_of_mem_key hk)).1 hw
    exact ⟨x.2, exists_mem_counting_iff.1 ⟨x, hx, hk, rfl⟩, rfl⟩
  · rintro ⟨value, hvalue, rfl⟩
    obtain ⟨x, hx, hk, rfl⟩ := exists_mem_counting_iff.2 hvalue
    exact ⟨(f.key, guess x.2), mem_assignments.2 ⟨x, hx, f.key, hk, rfl⟩,
      (assignedBy_guess_iff (lowerChar_of_mem_key hk)).2 ⟨rfl, rfl⟩⟩

theorem assignments_append (env env' : Environment) :
    assignments (env ++ env') = assignments env ++ assignments env' := List.filterMap_append

theorem apply_eq_foldl (env : Environment) (ms : Members) :
    apply env ms = env.assignments.foldl (fun ms a ↦ set ms a.1 a.2) ms := by
  induction env generalizing ms with
  | nil => rfl
  | cons x env ih =>
    rw [apply, List.foldl_cons, ← apply, ih]
    cases hk : key? x.1 <;> simp [assignments, hk]

def value? (env : Environment) (name : String) : Option String := env.reverse.lookup name

/-- Adds variables one after another. One that is set already keeps its value. -/
def extend (env extra : Environment) : Environment :=
  extra.foldl (fun env x ↦ env.addMissing x.1 x.2) env

theorem isSome_value? (env : Environment) (name : String) :
    (env.value? name).isSome = (env.lookup name).isSome := by
  rw [Bool.eq_iff_iff]
  simp [value?, List.lookup_isSome_iff]

theorem value?_concat (env : Environment) (name value n : String) :
    value? (env ++ [(name, value)]) n = if n = name then some value else env.value? n := by
  by_cases hn : n = name <;> simp [value?, List.lookup_cons, hn, beq_false_of_ne]

theorem value?_addMissing (env : Environment) (name value n : String) :
    (env.addMissing name value).value? n =
      (env.value? n).or (if n = name then some value else none) := by
  unfold addMissing
  split
  · next h =>
    rw [← isSome_value?] at h
    by_cases hn : n = name
    · obtain ⟨v, hv⟩ := Option.isSome_iff_exists.1 h
      rw [hn, hv, Option.some_or]
    · rw [if_neg hn, Option.or_none]
  · next h =>
    rw [← isSome_value?, Bool.not_eq_true, Option.isSome_eq_false_iff, Option.isNone_iff_eq_none] at h
    rw [value?_concat]
    by_cases hn : n = name
    · rw [if_pos hn, hn, h, Option.none_or, if_pos rfl]
    · rw [if_neg hn, if_neg hn, Option.or_none]

theorem value?_extend (env extra : Environment) (n : String) :
    (env.extend extra).value? n = (env.value? n).or (extra.lookup n) := by
  induction extra generalizing env with
  | nil => simp [extend]
  | cons x extra ih =>
    rw [extend, List.foldl_cons, ← extend, ih, value?_addMissing, Option.or_assoc, List.lookup_cons]
    congr 1
    by_cases hx : n = x.1 <;> simp [hx, beq_false_of_ne]

end Environment

namespace Variables

def assignments (env : Environment) : List (List Char) → Environment
  | [] => []
  | l :: ls =>
    let cs := Text.trim l
    if isVoid cs then assignments env ls
    else
      match assignment? (valueOf env) cs with
      | none => []
      | some (name, value) =>
        (.ofList name, .ofList value) ::
          assignments (env.addMissing (.ofList name) (.ofList value)) ls

theorem addLines_eq_extend (env : Environment) (ls : List (List Char)) :
    addLines env ls = env.extend (assignments env ls) := by
  fun_induction addLines env ls with
  | case1 => rfl
  | case2 env l ls cs hvoid ih => rw [assignments, if_pos hvoid, ih]
  | case3 env l ls cs hvoid hnone =>
    rw [assignments, if_neg hvoid, hnone]
    rfl
  | case4 env l ls cs hvoid name value hsome ih =>
    rw [assignments, if_neg hvoid, hsome, ih]
    rfl

end Variables

end Achievements
