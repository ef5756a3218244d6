import Achievements.Json.Basic

namespace Achievements.Json

mutual

def DistinctKeys : Json → Prop
  | arr items => DistinctItems items
  | obj members => (members.map Prod.fst).Nodup ∧ DistinctMembers members
  | null | bool _ | int _ | float _ | str _ => True
termination_by structural v => v

def DistinctItems : List Json → Prop
  | [] => True
  | v :: vs => DistinctKeys v ∧ DistinctItems vs
termination_by structural vs => vs

def DistinctMembers : List (String × Json) → Prop
  | [] => True
  | m :: ms => DistinctMember m ∧ DistinctMembers ms
termination_by structural ms => ms

def DistinctMember : String × Json → Prop
  | (_, v) => DistinctKeys v
termination_by structural m => m

end

theorem distinctItems_iff {vs : List Json} : DistinctItems vs ↔ ∀ v ∈ vs, v.DistinctKeys := by
  induction vs with
  | nil => simp [DistinctItems]
  | cons v vs ih => simp [DistinctItems, ih]

theorem distinctMembers_iff {ms : List (String × Json)} :
    DistinctMembers ms ↔ ∀ m ∈ ms, m.2.DistinctKeys := by
  induction ms with
  | nil => simp [DistinctMembers]
  | cons m ms ih =>
    obtain ⟨key, v⟩ := m
    simp [DistinctMembers, DistinctMember, ih]

theorem lookup_eq_some_iff_mem {α : Type} {ms : List (String × α)} {key : String} {v : α}
    (h : (ms.map Prod.fst).Nodup) : ms.lookup key = some v ↔ (key, v) ∈ ms := by
  induction ms with
  | nil => simp
  | cons m ms ih =>
    obtain ⟨k, w⟩ := m
    rw [List.map_cons, List.nodup_cons] at h
    by_cases hk : key = k
    · subst hk
      have hfresh : (key, v) ∉ ms := fun hm ↦ h.1 (List.mem_map.2 ⟨_, hm, rfl⟩)
      simp [hfresh, eq_comm]
    · have hbeq : (key == k) = false := beq_eq_false_iff_ne.2 hk
      rw [List.lookup_cons, hbeq]
      simp [hk, ih h.2]

theorem eq_of_mem_of_nodup {ms : List (String × Json)} {key : String} {v w : Json}
    (h : (ms.map Prod.fst).Nodup) (hv : (key, v) ∈ ms) (hw : (key, w) ∈ ms) : v = w := by
  rw [← lookup_eq_some_iff_mem h] at hv hw
  rw [hv] at hw
  exact Option.some.inj hw

theorem DistinctKeys.of_get? {v w : Json} {key : String} (h : v.DistinctKeys)
    (hw : v.get? key = some w) : w.DistinctKeys := by
  cases v with
  | obj members =>
    obtain ⟨before, after, hsplit, -⟩ := List.lookup_eq_some_iff.1 hw
    have hmem : (key, w) ∈ members := by
      rw [← List.mem_reverse, hsplit]
      simp
    exact distinctMembers_iff.1 h.2 _ hmem
  | null => cases hw
  | bool b => cases hw
  | int n => cases hw
  | float x => cases hw
  | str s => cases hw
  | arr items => cases hw

section Sorting

variable {ms : List (String × Json)} {key : String} {v : Json}

theorem mem_insertMember {m : String × Json} (h : m ∈ insertMember key v ms) :
    m = (key, v) ∨ m ∈ ms := by
  induction ms with
  | nil => simpa [insertMember] using h
  | cons n ms ih =>
    rw [insertMember] at h
    split at h
    · simpa using h
    · split at h
      · rcases List.mem_cons.1 h with h | h
        · exact .inl h
        · exact .inr (List.mem_cons_of_mem _ h)
      · rcases List.mem_cons.1 h with h | h
        · exact .inr (h ▸ List.mem_cons_self)
        · exact (ih h).imp_right (List.mem_cons_of_mem _)

theorem pairwise_insertMember (h : ms.Pairwise (·.1 < ·.1)) :
    (insertMember key v ms).Pairwise (·.1 < ·.1) := by
  induction ms with
  | nil => simp [insertMember]
  | cons n ms ih =>
    obtain ⟨k, w⟩ := n
    rw [List.pairwise_cons] at h
    rw [insertMember]
    split
    case isTrue hlt =>
      refine List.pairwise_cons.2 ⟨?_, List.pairwise_cons.2 h⟩
      intro m hm
      rcases List.mem_cons.1 hm with rfl | hm
      · exact hlt
      · exact String.lt_trans hlt (h.1 m hm)
    case isFalse hlt =>
      split
      case isTrue heq =>
        subst heq
        exact List.pairwise_cons.2 h
      case isFalse hne =>
        refine List.pairwise_cons.2 ⟨?_, ih h.2⟩
        intro m hm
        rcases mem_insertMember hm with rfl | hm
        · have hle : k ≤ key := String.not_lt.1 hlt
          rw [← String.not_le]
          intro hge
          exact hne (String.le_antisymm hge hle)
        · exact h.1 m hm

theorem foldl_insertMember {ns : List (String × Json)} (h : ms.Pairwise (·.1 < ·.1))
    (hms : ∀ m ∈ ms, m.2.DistinctKeys) (hns : ∀ m ∈ ns, m.2.DistinctKeys) :
    (ns.foldl (fun ms m ↦ insertMember m.1 m.2 ms) ms).Pairwise (·.1 < ·.1) ∧
      ∀ m ∈ ns.foldl (fun ms m ↦ insertMember m.1 m.2 ms) ms, m.2.DistinctKeys := by
  induction ns generalizing ms with
  | nil => exact ⟨h, hms⟩
  | cons n ns ih =>
    refine ih (pairwise_insertMember h) ?_ fun m hm ↦ hns m (List.mem_cons_of_mem _ hm)
    intro m hm
    rcases mem_insertMember hm with rfl | hm
    · exact hns n List.mem_cons_self
    · exact hms m hm

end Sorting

theorem nodup_keys_of_pairwise {ms : List (String × Json)} (h : ms.Pairwise (·.1 < ·.1)) :
    (ms.map Prod.fst).Nodup := by
  rw [List.Nodup, List.pairwise_map]
  refine h.imp ?_
  intro m n hlt heq
  rw [heq] at hlt
  exact String.lt_irrefl _ hlt

mutual

theorem distinctKeys_sorted : ∀ v : Json, v.sorted.DistinctKeys
  | arr items => distinctItems_iff.2 (distinctItems_sorted items)
  | obj members => by
    have h := foldl_insertMember .nil (by simp) (distinctMembers_sorted members)
    exact ⟨nodup_keys_of_pairwise h.1, distinctMembers_iff.2 h.2⟩
  | null => trivial
  | bool _ => trivial
  | int _ => trivial
  | float _ => trivial
  | str _ => trivial

theorem distinctItems_sorted : ∀ vs : List Json, ∀ v ∈ sortedItems vs, v.DistinctKeys
  | [], _, hv => by cases hv
  | w :: ws, v, hv => by
    rcases List.mem_cons.1 hv with rfl | hv
    · exact distinctKeys_sorted w
    · exact distinctItems_sorted ws v hv

theorem distinctMembers_sorted :
    ∀ ms : List (String × Json), ∀ m ∈ sortedMembers ms, m.2.DistinctKeys
  | [], _, hm => by cases hm
  | (key, w) :: ms, m, hm => by
    rcases List.mem_cons.1 hm with rfl | hm
    · exact distinctKeys_sorted w
    · exact distinctMembers_sorted ms m hm

end

end Achievements.Json
