import Achievements.Proofs.Binary64.Rounding

namespace Achievements.Binary64

open Finite64 (one)

variable {x y z : Binary64} {a b k m n : Int}

theorem place?_eq_none_iff : x.place? = none ↔ x = nan := by
  cases x with
  | nan => exact iff_of_true rfl rfl
  | inf neg => exact iff_of_false nofun nofun
  | fin x => exact iff_of_false nofun nofun

theorem exists_place (h : x ≠ nan) : ∃ a, x.place? = some a := by
  rw [← Option.isSome_iff_exists, Option.isSome_iff_ne_none]
  exact mt place?_eq_none_iff.1 h

theorem twoPow_lt_twoPow {i j : Nat} (h : i < j) : twoPow i < twoPow j :=
  Nat.pow_lt_pow_right (by decide) h

theorem le_iff (hx : x.place? = some a) (hy : y.place? = some b) : x.le y = true ↔ a ≤ b := by
  simp [le, hx, hy]

theorem lt_iff (hx : x.place? = some a) (hy : y.place? = some b) : x.lt y = true ↔ a < b := by
  simp [lt, hx, hy]

theorem le_nan (x : Binary64) : x.le nan = false := by
  cases x <;> rfl

theorem ne_nan_of_le (h : x.le y = true) : x ≠ nan ∧ y ≠ nan := by
  constructor
  · rintro rfl
    cases h
  · rintro rfl
    rw [le_nan] at h
    cases h

theorem le_trans (hxy : x.le y = true) (hyz : y.le z = true) : x.le z = true := by
  obtain ⟨a, ha⟩ := exists_place (ne_nan_of_le hxy).1
  obtain ⟨b, hb⟩ := exists_place (ne_nan_of_le hxy).2
  obtain ⟨c, hc⟩ := exists_place (ne_nan_of_le hyz).2
  rw [le_iff ha hb] at hxy
  rw [le_iff hb hc] at hyz
  rw [le_iff ha hc]
  exact Int.le_trans hxy hyz

def signed (neg : Bool) (n : Nat) : Int := if neg then -(n : Int) else n

theorem place?_round (neg : Bool) (num den : Nat) :
    (round neg num den).place? = some (signed neg (min (roundUnits num den) limit)) := by
  rw [round]
  split
  case isTrue h => rw [Nat.min_eq_left (Nat.le_of_lt h)]; rfl
  case isFalse h => rw [Nat.min_eq_right (Nat.le_of_not_lt h)]; rfl

theorem natAbs_signed (neg : Bool) (n : Nat) : (signed neg n).natAbs = n := by
  cases neg with
  | true => exact (Int.natAbs_neg _).trans (Int.natAbs_natCast n)
  | false => exact Int.natAbs_natCast n

theorem place?_abs (x : Binary64) : x.abs.place? = x.place?.map fun a ↦ (a.natAbs : Int) := by
  cases x with
  | nan => rfl
  | inf neg => exact congrArg (some ∘ Nat.cast) (natAbs_signed neg limit).symm
  | fin x => exact congrArg (some ∘ Nat.cast) (natAbs_signed x.neg x.units).symm

section Integers

/-- The place of the double nearest to an integer. -/
def intPlace (n : Int) : Int := signed (n < 0) (min (roundUnits (n.natAbs * one) 1) limit)

theorem place?_ofInt (n : Int) : (ofInt n).place? = some (intPlace n) :=
  place?_round (n < 0) (n.natAbs * one) 1

theorem intPlace_le_intPlace (h : m ≤ n) : intPlace m ≤ intPlace n := by
  have hround {i j : Nat} (hij : i ≤ j) :
      min (roundUnits (i * one) 1) limit ≤ min (roundUnits (j * one) 1) limit := by
    have := roundUnits_le_of_le (Nat.mul_le_mul_right one hij) 1
    omega
  simp only [intPlace, signed, decide_eq_true_eq]
  split
  · split
    · have := hround (i := n.natAbs) (j := m.natAbs) (by omega)
      omega
    · omega
  · rw [if_neg (by omega)]
    have := hround (i := m.natAbs) (j := n.natAbs) (by omega)
    omega

theorem intPlace_of_natAbs_le (h : n.natAbs ≤ twoPow 53) : intPlace n = n * one := by
  have hfits : Fits (n.natAbs * one) := by
    rw [one]
    exact fits_mul_twoPow h 1074
  have hlimit : n.natAbs * one ≤ limit :=
    calc n.natAbs * one ≤ twoPow 53 * one := Nat.mul_le_mul_right one h
      _ = twoPow (53 + 1074) := by rw [twoPow_add, one]
      _ ≤ limit := twoPow_le_twoPow (by decide)
  rw [intPlace, roundUnits_of_fits hfits, Nat.min_eq_left hlimit, signed]
  simp only [decide_eq_true_eq]
  split
  case isTrue hneg =>
    have habs : (n.natAbs : Int) = -n := by omega
    rw [Int.natCast_mul, habs, Int.neg_mul, Int.neg_neg]
  case isFalse hneg =>
    have habs : (n.natAbs : Int) = n := by omega
    rw [Int.natCast_mul, habs]

theorem isFinite_ofInt_of_natAbs_le (h : n.natAbs ≤ twoPow 64) : (ofInt n).isFinite = true := by
  have hfits : Fits (twoPow 64 * one) :=
    ⟨1, 64 + 1074, by decide, by rw [twoPow_add, one, Nat.one_mul]⟩
  have hlimit : roundUnits (n.natAbs * one) 1 < limit :=
    calc roundUnits (n.natAbs * one) 1
        ≤ roundUnits (twoPow 64 * one) 1 := roundUnits_le_of_le (Nat.mul_le_mul_right one h) 1
      _ = twoPow (64 + 1074) := by rw [roundUnits_of_fits hfits, twoPow_add, one]
      _ < limit := twoPow_lt_twoPow (by decide)
  rw [ofInt, round, dif_pos hlimit]
  rfl

theorem exists_ofInt_eq_fin (h : n.natAbs ≤ twoPow 64) :
    ∃ y : Finite64, ofInt n = .fin y ∧ y.place = intPlace n := by
  have hfinite := isFinite_ofInt_of_natAbs_le h
  have hplace := place?_ofInt n
  cases hn : ofInt n with
  | fin y =>
    rw [hn] at hplace
    exact ⟨y, rfl, Option.some.inj hplace⟩
  | nan =>
    rw [hn] at hfinite
    cases hfinite
  | inf neg =>
    rw [hn] at hfinite
    cases hfinite

theorem one_pos : (0 : Int) < one := Int.natCast_pos.2 (twoPow_pos 1074)

/-- Integers above a small one stay above it, by a whole one at least. -/
theorem le_intPlace_of_lt (hm : m.natAbs < twoPow 53) (h : m < k) :
    (m + 1) * one ≤ intPlace k := by
  rw [← intPlace_of_natAbs_le (by omega)]
  exact intPlace_le_intPlace h

theorem intPlace_le_of_lt (hm : m.natAbs < twoPow 53) (h : k < m) :
    intPlace k ≤ (m - 1) * one := by
  rw [← intPlace_of_natAbs_le (by omega)]
  exact intPlace_le_intPlace (by omega)

theorem intPlace_le_iff (hm : m.natAbs < twoPow 53) : intPlace k ≤ m * one ↔ k ≤ m := by
  constructor
  · intro h
    refine Int.not_lt.1 fun hlt ↦ ?_
    have hgap := le_intPlace_of_lt hm hlt
    have := one_pos
    rw [Int.add_mul, Int.one_mul] at hgap
    omega
  · intro h
    rw [← intPlace_of_natAbs_le (Nat.le_of_lt hm)]
    exact intPlace_le_intPlace h

theorem le_intPlace_iff (hm : m.natAbs < twoPow 53) : m * one ≤ intPlace k ↔ m ≤ k := by
  constructor
  · intro h
    refine Int.not_lt.1 fun hlt ↦ ?_
    have hgap := intPlace_le_of_lt hm hlt
    have := one_pos
    rw [Int.sub_mul, Int.one_mul] at hgap
    omega
  · intro h
    rw [← intPlace_of_natAbs_le (Nat.le_of_lt hm)]
    exact intPlace_le_intPlace h

theorem eq_intPlace_iff (hm : m.natAbs < twoPow 53) : m * one = intPlace k ↔ m = k := by
  have hle := le_intPlace_iff (k := k) hm
  have hge := intPlace_le_iff (k := k) hm
  omega

theorem one_le_natAbs_sub_intPlace (hm : m.natAbs < twoPow 53) (h : m ≠ k) :
    one ≤ (m * one - intPlace k).natAbs := by
  rcases Int.lt_or_gt_of_ne h with hlt | hgt
  · have hgap := le_intPlace_of_lt hm hlt
    rw [Int.add_mul, Int.one_mul] at hgap
    omega
  · have hgap := intPlace_le_of_lt hm hgt
    rw [Int.sub_mul, Int.one_mul] at hgap
    omega

end Integers

end Achievements.Binary64
