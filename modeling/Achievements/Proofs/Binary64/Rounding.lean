import Mathlib.Tactic.SplitIfs
import Achievements.Binary64.Basic

namespace Achievements.Binary64

variable {a b c d m : Nat}

theorem roundDiv_mul_mul (a d : Nat) (hc : 0 < c) : roundDiv (a * c) (d * c) = roundDiv a d := by
  have hlow : 2 * (a % d * c) < d * c ↔ 2 * (a % d) < d := by
    rw [← Nat.mul_assoc, Nat.mul_lt_mul_right hc]
  have hhigh : d * c < 2 * (a % d * c) ↔ d < 2 * (a % d) := by
    rw [← Nat.mul_assoc, Nat.mul_lt_mul_right hc]
  simp only [roundDiv, Nat.mul_div_mul_right a d hc, Nat.mul_mod_mul_right c a d, hlow, hhigh]

theorem div_le_roundDiv (a d : Nat) : a / d ≤ roundDiv a d := by
  simp only [roundDiv]
  split
  · exact Nat.le_refl _
  · split <;> omega

theorem roundDiv_le_roundDiv (h : a ≤ b) (d : Nat) : roundDiv a d ≤ roundDiv b d := by
  rcases Nat.lt_or_eq_of_le (Nat.div_le_div_right (c := d) h) with hlt | heq
  · calc roundDiv a d ≤ a / d + 1 := roundDiv_le a d
      _ ≤ b / d := hlt
      _ ≤ roundDiv b d := div_le_roundDiv b d
  · have hr : a % d ≤ b % d := by
      have ha := Nat.div_add_mod a d
      have hb := Nat.div_add_mod b d
      rw [heq] at ha
      omega
    simp only [roundDiv, heq]
    split_ifs <;> omega

theorem roundDiv_mul_self (q : Nat) (hd : 0 < d) : roundDiv (q * d) d = q := by
  simp only [roundDiv, Nat.mul_mod_left, Nat.mul_zero, hd, if_true, Nat.mul_div_cancel q hd]

theorem roundUnits_mul_mul (a d : Nat) (hc : 0 < c) :
    roundUnits (a * c) (d * c) = roundUnits a d := by
  simp only [roundUnits, gridExponent, Nat.mul_div_mul_right a d hc]
  rw [Nat.mul_right_comm d c, roundDiv_mul_mul a _ hc]

theorem gridExponent_le_gridExponent (h : a ≤ b) (d : Nat) :
    gridExponent a d ≤ gridExponent b d := by
  have hdiv := Nat.div_le_div_right (c := d) h
  have hlog : (a / d).log2 ≤ (b / d).log2 := by
    by_cases h0 : a / d = 0
    · simp [h0]
    · have hb0 : b / d ≠ 0 := Nat.ne_of_gt (Nat.lt_of_lt_of_le (Nat.pos_of_ne_zero h0) hdiv)
      exact (Nat.le_log2 hb0).2 (Nat.le_trans (Nat.log2_self_le h0) hdiv)
  simp only [gridExponent]
  omega

theorem twoPow_le_div_of_gridExponent (h : 0 < gridExponent a d) :
    twoPow 52 ≤ a / (d * twoPow (gridExponent a d)) := by
  have hlog : (a / d).log2 = 52 + gridExponent a d := by
    simp only [gridExponent] at h ⊢
    omega
  have h0 : a / d ≠ 0 := by
    intro h0
    rw [gridExponent, h0] at h
    exact absurd h (by decide)
  rw [← Nat.div_div_eq_div_mul, Nat.le_div_iff_mul_le (twoPow_pos _), ← twoPow_add, ← hlog]
  exact Nat.log2_self_le h0

theorem roundUnits_le_of_le (h : a ≤ b) (d : Nat) : roundUnits a d ≤ roundUnits b d := by
  rcases Nat.lt_or_eq_of_le (gridExponent_le_gridExponent h d) with hlt | heq
  · -- the coarser grid starts where the finer one ends
    have ha : roundDiv a (d * twoPow (gridExponent a d)) ≤ twoPow 53 := by
      have := roundDiv_le a (d * twoPow (gridExponent a d))
      have := div_gridExponent_lt a d
      omega
    have hb := twoPow_le_div_of_gridExponent (Nat.lt_of_le_of_lt (Nat.zero_le _) hlt)
    calc roundUnits a d ≤ twoPow 53 * twoPow (gridExponent a d) := Nat.mul_le_mul_right _ ha
      _ = twoPow (53 + gridExponent a d) := (twoPow_add _ _).symm
      _ ≤ twoPow (52 + gridExponent b d) := twoPow_le_twoPow (by omega)
      _ = twoPow 52 * twoPow (gridExponent b d) := twoPow_add _ _
      _ ≤ roundUnits b d := Nat.mul_le_mul_right _ (Nat.le_trans hb (div_le_roundDiv _ _))
  · simp only [roundUnits, heq]
    exact Nat.mul_le_mul_right _ (roundDiv_le_roundDiv h _)

theorem roundUnits_le_roundUnits (hc : 0 < c) (hd : 0 < d) (h : a * d ≤ b * c) :
    roundUnits a c ≤ roundUnits b d := by
  rw [← roundUnits_mul_mul a c hd, ← roundUnits_mul_mul b d hc, Nat.mul_comm d c]
  exact roundUnits_le_of_le h _

theorem twoPow_gridExponent_dvd (h : Fits m) : twoPow (gridExponent m 1) ∣ m := by
  obtain ⟨k, e, hk, rfl⟩ := h
  refine Nat.dvd_trans (Nat.pow_dvd_pow 2 ?_) (Nat.dvd_mul_left _ _)
  refine Nat.le_of_not_lt fun hlt ↦ ?_
  have h52 := twoPow_le_div_of_gridExponent (a := k * twoPow e) (d := 1) (by omega)
  rw [Nat.one_mul, Nat.le_div_iff_mul_le (twoPow_pos _), ← twoPow_add] at h52
  have hpow := twoPow_le_twoPow (m := 53 + e) (n := 52 + gridExponent (k * twoPow e) 1) (by omega)
  rw [twoPow_add 53 e] at hpow
  have := (Nat.mul_lt_mul_right (twoPow_pos e)).2 hk
  omega

theorem roundUnits_of_fits (h : Fits m) : roundUnits m 1 = m := by
  obtain ⟨q, hq⟩ := twoPow_gridExponent_dvd h
  simp only [roundUnits]
  generalize gridExponent m 1 = e at hq
  rw [hq, Nat.one_mul, Nat.mul_comm (twoPow e) q, roundDiv_mul_self q (twoPow_pos e)]

theorem roundUnits_mul_self (h : Fits m) (hd : 0 < d) : roundUnits (m * d) d = m := by
  have := roundUnits_mul_mul m 1 hd
  rw [Nat.one_mul] at this
  rw [this, roundUnits_of_fits h]

theorem roundUnits_congr (hc : 0 < c) (hd : 0 < d) (h : a * d = b * c) :
    roundUnits a c = roundUnits b d :=
  Nat.le_antisymm (roundUnits_le_roundUnits hc hd (Nat.le_of_eq h))
    (roundUnits_le_roundUnits hd hc (Nat.le_of_eq h.symm))

theorem roundUnits_zero (hd : 0 < d) : roundUnits 0 d = 0 := by
  have := roundUnits_mul_self (fits_of_lt (twoPow_pos 53)) hd
  rwa [Nat.zero_mul] at this

section Near

variable {e k : Nat}

theorem gridExponent_le_of_lt (h : a / b < twoPow (53 + e)) : gridExponent a b ≤ e := by
  by_cases h0 : a / b = 0
  · simp [gridExponent, h0]
  · have hlog := (Nat.log2_lt h0).2 h
    simp only [gridExponent]
    omega

theorem le_gridExponent_of_le (h : twoPow (52 + e) ≤ a / b) : e ≤ gridExponent a b := by
  have h0 : a / b ≠ 0 := Nat.ne_of_gt (Nat.lt_of_lt_of_le (twoPow_pos _) h)
  have hlog := (Nat.le_log2 h0).2 h
  simp only [gridExponent]
  omega

theorem roundDiv_eq_of_near (hlow : 2 * (k * d) < 2 * a + d) (hhigh : 2 * a < 2 * (k * d) + d) :
    roundDiv a d = k := by
  have hmod := Nat.div_add_mod a d
  rcases Nat.lt_or_ge a (k * d) with hlt | hge
  · obtain ⟨q, rfl⟩ := Nat.exists_eq_succ_of_ne_zero (n := k) (by rintro rfl; simp at hlt)
    have hsucc : q.succ * d = q * d + d := Nat.succ_mul q d
    have hq : a / d = q := Nat.div_eq_of_lt_le (by omega) hlt
    rw [hq, Nat.mul_comm] at hmod
    simp only [roundDiv, hq]
    rw [if_neg (by omega), if_pos (by omega)]
  · have hq : a / d = k := Nat.div_eq_of_lt_le hge (by rw [Nat.succ_mul]; omega)
    rw [hq, Nat.mul_comm] at hmod
    simp only [roundDiv, hq]
    rw [if_pos (by omega)]

theorem roundUnits_eq_of_gridExponent (he : gridExponent a b = e)
    (hlow : 2 * (k * (twoPow e * b)) < 2 * a + twoPow e * b)
    (hhigh : 2 * a < 2 * (k * (twoPow e * b)) + twoPow e * b) :
    roundUnits a b = k * twoPow e := by
  have hround : roundDiv a (b * twoPow e) = k := by
    rw [Nat.mul_comm b]
    exact roundDiv_eq_of_near hlow hhigh
  simp only [roundUnits, he, hround]

theorem roundUnits_eq_of_below (hb : 0 < b) (hlt : a < twoPow 52 * (twoPow (e + 1) * b))
    (hlow : 4 * (twoPow 52 * (twoPow (e + 1) * b)) < 4 * a + twoPow (e + 1) * b) :
    roundUnits a b = twoPow 52 * twoPow (e + 1) := by
  have h53 : twoPow 53 = 2 * twoPow 52 := rfl
  have hhalf : twoPow (e + 1) * b = 2 * (twoPow e * b) := by
    rw [← Nat.mul_assoc, Nat.add_comm e, twoPow_add]
    rfl
  have hsame : twoPow 52 * (twoPow (e + 1) * b) = twoPow 53 * (twoPow e * b) := by
    rw [hhalf, h53, Nat.mul_left_comm, Nat.mul_assoc]
  have hdouble : twoPow 53 * (twoPow e * b) = 2 * (twoPow 52 * (twoPow e * b)) := by
    rw [h53, Nat.mul_assoc]
  have hgrid : gridExponent a b = e := by
    refine Nat.le_antisymm (gridExponent_le_of_lt ?_) (le_gridExponent_of_le ?_)
    · rw [Nat.div_lt_iff_lt_mul hb, twoPow_add, Nat.mul_assoc]
      omega
    · rw [Nat.le_div_iff_mul_le hb, twoPow_add, Nat.mul_assoc]
      have := Nat.le_mul_of_pos_left (twoPow e * b) (twoPow_pos 52)
      omega
  rw [roundUnits_eq_of_gridExponent (k := twoPow 53) hgrid (by omega) (by omega), ← twoPow_add,
    ← twoPow_add]
  congr 1
  omega

/-- What lies less than half a step from a double is rounded to it. -/
theorem roundUnits_eq_of_near (hb : 0 < b) (hk : k < twoPow 53) (he : 0 < e → twoPow 52 ≤ k)
    (hlow : 2 * (k * (twoPow e * b)) < 2 * a + twoPow e * b)
    (hhigh : 2 * a < 2 * (k * (twoPow e * b)) + twoPow e * b)
    (hedge : k = twoPow 52 → 4 * (k * (twoPow e * b)) < 4 * a + twoPow e * b) :
    roundUnits a b = k * twoPow e := by
  have hupper : gridExponent a b ≤ e := by
    apply gridExponent_le_of_lt
    rw [Nat.div_lt_iff_lt_mul hb, twoPow_add, Nat.mul_assoc]
    have := Nat.mul_le_mul_right (twoPow e * b) hk
    rw [Nat.succ_mul] at this
    omega
  rcases Nat.eq_zero_or_pos e with rfl | hpos
  · exact roundUnits_eq_of_gridExponent (Nat.le_zero.1 hupper) hlow hhigh
  · rcases Nat.lt_or_ge a (twoPow 52 * (twoPow e * b)) with hlt | hge
    · -- below the grid of the double: it is the power of two at which the grid starts
      have hk52 : k = twoPow 52 := by
        refine Nat.le_antisymm (Nat.le_of_not_lt fun hgt ↦ ?_) (he hpos)
        have := Nat.mul_le_mul_right (twoPow e * b) hgt
        rw [Nat.succ_mul] at this
        omega
      obtain ⟨f, rfl⟩ := Nat.exists_eq_succ_of_ne_zero (Nat.ne_of_gt hpos)
      rw [hk52] at hedge ⊢
      exact roundUnits_eq_of_below hb hlt (hedge rfl)
    · have hlower : e ≤ gridExponent a b := by
        apply le_gridExponent_of_le
        rwa [Nat.le_div_iff_mul_le hb, twoPow_add, Nat.mul_assoc]
      exact roundUnits_eq_of_gridExponent (Nat.le_antisymm hupper hlower) hlow hhigh

theorem exists_mul_twoPow_of_fits (h : Fits m) :
    ∃ k e, m = k * twoPow e ∧ k < twoPow 53 ∧ (0 < e → twoPow 52 ≤ k) := by
  obtain ⟨k, hk⟩ := twoPow_gridExponent_dvd h
  have hdiv : m / (1 * twoPow (gridExponent m 1)) = k := by
    rw [Nat.one_mul]
    exact Nat.div_eq_of_eq_mul_right (twoPow_pos _) hk
  refine ⟨k, gridExponent m 1, by rw [Nat.mul_comm, ← hk], ?_, fun hpos ↦ ?_⟩
  · exact hdiv ▸ div_gridExponent_lt m 1
  · exact hdiv ▸ twoPow_le_div_of_gridExponent hpos

/-- A grid of more than 2⁵³ steps below a double is fine enough: the double is what the nearest
point of the grid is rounded to. -/
theorem roundUnits_eq_of_grid (h : Fits m) (hb : 0 < b) (hd : 0 < d)
    (hfine : 10000000000000000 * d ≤ m * b) (hlow : 2 * (m * b) ≤ 2 * a + d)
    (hhigh : 2 * a ≤ 2 * (m * b) + d) : roundUnits a b = m := by
  obtain ⟨k, e, rfl, hk, he⟩ := exists_mul_twoPow_of_fits h
  have hstep : 0 < twoPow e * b := Nat.mul_pos (twoPow_pos e) hb
  have hle : k * (twoPow e * b) ≤ 9007199254740992 * (twoPow e * b) :=
    Nat.mul_le_mul_right _ (Nat.le_of_lt hk)
  rw [Nat.mul_assoc] at hfine hlow hhigh
  refine roundUnits_eq_of_near hb hk he (by omega) (by omega) fun hk52 ↦ ?_
  have hedge : k * (twoPow e * b) = 4503599627370496 * (twoPow e * b) := by rw [hk52]; rfl
  omega

end Near

end Achievements.Binary64
