import Achievements.Proofs.Json.Keys

namespace Achievements.Json

mutual

def InOrder : Json → Prop
  | arr items => InOrderItems items
  | obj members => members.Pairwise (·.1 < ·.1) ∧ InOrderMembers members
  | null | bool _ | int _ | float _ | str _ => True
termination_by structural v => v

def InOrderItems : List Json → Prop
  | [] => True
  | v :: vs => InOrder v ∧ InOrderItems vs
termination_by structural vs => vs

def InOrderMembers : List (String × Json) → Prop
  | [] => True
  | m :: ms => InOrderMember m ∧ InOrderMembers ms
termination_by structural ms => ms

def InOrderMember : String × Json → Prop
  | (_, v) => InOrder v
termination_by structural m => m

end

mutual

/-- The same value, the members of its objects in any order. -/
inductive Same : Json → Json → Prop
  | refl (v : Json) : Same v v
  | arr {vs ws : List Json} : SameItems vs ws → Same (.arr vs) (.arr ws)
  | obj {ms ns ks : List (String × Json)} :
      SameMembers ms ns → ns.Perm ks → Same (.obj ms) (.obj ks)

inductive SameItems : List Json → List Json → Prop
  | nil : SameItems [] []
  | cons {v w : Json} {vs ws : List Json} :
      Same v w → SameItems vs ws → SameItems (v :: vs) (w :: ws)

inductive SameMembers : List (String × Json) → List (String × Json) → Prop
  | nil : SameMembers [] []
  | cons {key : String} {v w : Json} {ms ns : List (String × Json)} :
      Same v w → SameMembers ms ns → SameMembers ((key, v) :: ms) ((key, w) :: ns)

end

section Sorting

variable {ms ns : List (String × Json)} {key : String} {v : Json}

theorem perm_insertMember (h : key ∉ ms.map Prod.fst) :
    (insertMember key v ms).Perm ((key, v) :: ms) := by
  induction ms with
  | nil => exact .refl _
  | cons m ms ih =>
    obtain ⟨k, w⟩ := m
    rw [List.map_cons, List.mem_cons, not_or] at h
    rw [insertMember]
    split
    · exact .refl _
    · rw [if_neg h.1]
      exact ((ih h.2).cons (k, w)).trans (.swap _ _ _)

theorem perm_foldl_insertMember (h : ((ms ++ ns).map Prod.fst).Nodup) :
    (ns.foldl (fun ms m ↦ insertMember m.1 m.2 ms) ms).Perm (ms ++ ns) := by
  induction ns generalizing ms with
  | nil => simp
  | cons n ns ih =>
    have hfresh : n.1 ∉ ms.map Prod.fst := by
      intro hmem
      rw [List.map_append, List.nodup_append] at h
      exact h.2.2 n.1 hmem n.1 (by simp) rfl
    have hperm : (insertMember n.1 n.2 ms ++ ns).Perm (ms ++ n :: ns) :=
      ((perm_insertMember hfresh).append_right ns).trans List.perm_middle.symm
    have hnodup := (hperm.map Prod.fst).nodup_iff.2 h
    exact (ih hnodup).trans hperm

theorem perm_foldl_insertMember_nil (h : (ns.map Prod.fst).Nodup) :
    (ns.foldl (fun ms m ↦ insertMember m.1 m.2 ms) []).Perm ns := by
  rw [← List.nil_append ns] at h
  exact perm_foldl_insertMember h

theorem keys_sortedMembers (ms : List (String × Json)) :
    (sortedMembers ms).map Prod.fst = ms.map Prod.fst := by
  induction ms with
  | nil => rfl
  | cons m ms ih => rw [sortedMembers, List.map_cons, ih, List.map_cons, sortedMember]

end Sorting

mutual

theorem same_sorted : ∀ v : Json, v.DistinctKeys → Same v v.sorted
  | arr items, h => .arr (sameItems_sorted items h)
  | obj members, h => by
    refine .obj (sameMembers_sorted members h.2) (perm_foldl_insertMember_nil ?_).symm
    rw [keys_sortedMembers]
    exact h.1
  | null, _ => .refl _
  | bool _, _ => .refl _
  | int _, _ => .refl _
  | float _, _ => .refl _
  | str _, _ => .refl _

theorem sameItems_sorted : ∀ vs : List Json, DistinctItems vs → SameItems vs (sortedItems vs)
  | [], _ => .nil
  | v :: vs, h => .cons (same_sorted v h.1) (sameItems_sorted vs h.2)

theorem sameMembers_sorted :
    ∀ ms : List (String × Json), DistinctMembers ms → SameMembers ms (sortedMembers ms)
  | [], _ => .nil
  | (_, v) :: ms, h => .cons (same_sorted v h.1) (sameMembers_sorted ms h.2)

end

mutual

theorem sorted_of_inOrder : ∀ v : Json, v.InOrder → v.sorted = v
  | arr items, h => congrArg arr (sortedItems_of_inOrder items h)
  | obj members, h => by
    have hmembers := sortedMembers_of_inOrder members h.2
    have hsorted := (foldl_insertMember .nil (by simp) (distinctMembers_sorted members)).1
    have hperm := perm_foldl_insertMember_nil (nodup_keys_of_pairwise h.1)
    rw [hmembers] at hsorted
    rw [sorted, hmembers]
    -- both lists have increasing keys, and there is only one way to put members so
    refine congrArg obj (hperm.eq_of_pairwise ?_ hsorted h.1)
    intro m n _ _ hlt hgt
    exact absurd (String.lt_trans hlt hgt) (String.lt_irrefl _)
  | null, _ => rfl
  | bool _, _ => rfl
  | int _, _ => rfl
  | float _, _ => rfl
  | str _, _ => rfl

theorem sortedItems_of_inOrder : ∀ vs : List Json, InOrderItems vs → sortedItems vs = vs
  | [], _ => rfl
  | v :: vs, h => by rw [sortedItems, sorted_of_inOrder v h.1, sortedItems_of_inOrder vs h.2]

theorem sortedMembers_of_inOrder :
    ∀ ms : List (String × Json), InOrderMembers ms → sortedMembers ms = ms
  | [], _ => rfl
  | (key, v) :: ms, h => by
    rw [sortedMembers, sortedMember, sorted_of_inOrder v h.1, sortedMembers_of_inOrder ms h.2]

end

end Achievements.Json
