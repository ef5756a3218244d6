import Mathlib.Data.List.Chain
import Achievements.Score
import Achievements.Proofs.Binary64.Order

namespace Achievements

open Binary64

namespace Condition

variable {s : Score} {stat : String} {a b c : Number}

def tiles (stat : String) : List Number → List Condition
  | lo :: hi :: bounds => range stat lo hi :: tiles stat (hi :: bounds)
  | _ => []

theorem holds_range_of_nan (h : s.read stat = .nan) : (range stat a b).holds s = false := by
  rw [holds, h, le_nan, Bool.false_and]

theorem holds_range_of_place {x lo hi : Int} (hx : (s.read stat).place? = some x)
    (ha : a.value.place? = some lo) (hb : b.value.place? = some hi) :
    (range stat a b).holds s = true ↔ lo ≤ x ∧ x < hi := by
  rw [holds, Bool.and_eq_true, le_iff ha hx, lt_iff hx hb]

theorem holds_range_split (s : Score) (stat : String) (hab : a.value.le b.value = true)
    (hbc : b.value.le c.value = true) :
    ((range stat a c).holds s = ((range stat a b).holds s || (range stat b c).holds s)) ∧
      ((range stat a b).holds s && (range stat b c).holds s) = false := by
  by_cases hnan : s.read stat = .nan
  · simp only [holds_range_of_nan hnan, Bool.or_self, Bool.and_self, and_self]
  · obtain ⟨x, hx⟩ := exists_place hnan
    obtain ⟨lo, hlo⟩ := exists_place (ne_nan_of_le hab).1
    obtain ⟨mid, hmid⟩ := exists_place (ne_nan_of_le hbc).1
    obtain ⟨hi, hhi⟩ := exists_place (ne_nan_of_le hbc).2
    rw [le_iff hlo hmid] at hab
    rw [le_iff hmid hhi] at hbc
    constructor
    · rw [Bool.eq_iff_iff, Bool.or_eq_true, holds_range_of_place hx hlo hhi,
        holds_range_of_place hx hlo hmid, holds_range_of_place hx hmid hhi]
      omega
    · rw [← Bool.not_eq_true, Bool.and_eq_true, holds_range_of_place hx hlo hmid,
        holds_range_of_place hx hmid hhi]
      omega

def Ascends (bounds : List Number) : Prop := bounds.IsChain fun a b ↦ a.value.le b.value = true

instance (bounds : List Number) : Decidable (Ascends bounds) :=
  inferInstanceAs (Decidable (bounds.IsChain fun a b ↦ a.value.le b.value = true))

theorem countP_tiles (s : Score) (stat : String) {first last : Number} {middle : List Number}
    (h : Ascends (first :: (middle ++ [last]))) :
    first.value.le last.value = true ∧
      (tiles stat (first :: (middle ++ [last]))).countP (·.holds s) =
        ((range stat first last).holds s).toNat := by
  induction middle generalizing first with
  | nil =>
    refine ⟨(List.isChain_cons_cons.1 h).1, ?_⟩
    have htiles : tiles stat (first :: ([] ++ [last])) = [range stat first last] := rfl
    rw [htiles, List.countP_singleton]
    cases (range stat first last).holds s <;> rfl
  | cons b middle ih =>
    obtain ⟨hfirst, hrest⟩ := List.isChain_cons_cons.1 h
    obtain ⟨hlast, hcount⟩ := ih hrest
    refine ⟨le_trans hfirst hlast, ?_⟩
    obtain ⟨hwhole, hone⟩ := holds_range_split s stat hfirst hlast
    rw [List.cons_append, tiles, List.countP_cons, hcount, hwhole]
    generalize (range stat first b).holds s = p at *
    generalize (range stat b last).holds s = q at *
    revert hone
    cases p <;> cases q <;> decide

theorem holds_range_iff_atLeast (hx : s.read stat ≠ .nan) (hb : b.value ≠ .nan) :
    (range stat a b).holds s = true ↔
      (compare stat .atLeast a).holds s = true ∧ (compare stat .atLeast b).holds s = false := by
  obtain ⟨x, hx⟩ := exists_place hx
  obtain ⟨hi, hhi⟩ := exists_place hb
  have hupper : (s.read stat).lt b.value = true ↔ b.value.le (s.read stat) = false := by
    rw [lt_iff hx hhi, ← Bool.not_eq_true, le_iff hhi hx, Int.not_le]
  simp only [holds, Comparison.holds, Bool.and_eq_true, hupper]

/-- Bounds that do not decrease tile what lies between the first and the last, whatever the stat:
no two of the ranges hold together, and one does exactly if the whole range holds. A range is what
is at least its lower bound and not at least its upper bound, unless one of these is no number. -/
theorem ranges_tile (s : Score) (stat : String) :
    (∀ (first : Number) (middle : List Number) (last : Number),
      Ascends (first :: (middle ++ [last])) →
        (tiles stat (first :: (middle ++ [last]))).countP (·.holds s) ≤ 1 ∧
          ((∃ c ∈ tiles stat (first :: (middle ++ [last])), c.holds s = true) ↔
            (range stat first last).holds s = true)) ∧
      (s.read stat ≠ .nan → ∀ a b : Number, b.value ≠ .nan →
        ((range stat a b).holds s = true ↔
          (compare stat .atLeast a).holds s = true ∧
            (compare stat .atLeast b).holds s = false)) := by
  refine ⟨fun first middle last h ↦ ?_, fun hx a b hb ↦ holds_range_iff_atLeast hx hb⟩
  have hcount := (countP_tiles s stat h).2
  rw [← List.countP_pos_iff, hcount]
  exact ⟨Bool.toNat_le _, by cases (range stat first last).holds s <;> simp⟩

theorem ranges_tile_at_bound :
    let s : Score := ({} : Score).withStarRating (.ofNat 2)
    let bounds : List Number := [.int 2, .float (.ofNat 2), .int 2, .float (.ofNat 3)]
    Ascends (.int (-1) :: (bounds ++ [.int .maxValue])) ∧
      (tiles "sr" (.int (-1) :: (bounds ++ [.int .maxValue]))).countP (·.holds s) = 1 := by
  intro s bounds
  have hascends : Ascends (.int (-1) :: (bounds ++ [.int .maxValue])) := by decide +kernel
  have hwhole : (range "sr" (.int (-1)) (.int .maxValue)).holds s = true := by decide +kernel
  obtain ⟨hmost, hsome⟩ := (ranges_tile s "sr").1 (.int (-1)) bounds (.int .maxValue) hascends
  have hleast := List.countP_pos_iff.2 (hsome.2 hwhole)
  exact ⟨hascends, Nat.le_antisymm hmost hleast⟩

end Condition

end Achievements
