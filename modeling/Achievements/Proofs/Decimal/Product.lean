import Achievements.Proofs.Decimal.Shortest

namespace Achievements.Decimal

open Binary64

open Finite64 (one)

variable {units : Nat} {x : Finite64}

def nearest (n : Nat) : Nat := roundUnits (n * one) 1

/-- Units times a power of ten, which is rounded first. -/
def timesPower (neg : Bool) (m : Nat) (e : Int) : Binary64 :=
  if 0 ≤ e then .round neg (m * nearest (tenPow e.toNat)) one
  else .round neg (m * one) (nearest (tenPow (-e).toNat))

/-- Coefficient times power of ten in doubles. Powers below 10⁻³⁰⁸ are divided out in two steps. -/
def product (neg : Bool) (d : Decimal) : Binary64 :=
  if -308 ≤ d.exp then timesPower neg (nearest d.coeff) d.exp
  else timesPower neg (roundUnits (nearest d.coeff * one) (nearest (tenPow 308))) (d.exp + 308)

/-- Halfway between the largest double and the first number with one bit more. -/
def overflow : Nat := (twoPow 54 - 1) * twoPow 2044

/-- The largest coefficient with which a decimal of this exponent is below the overflow. The
shortest digits of the largest double end in 7, though an 8 there would be read as the same one. -/
def largestCoeff (e : Nat) : Nat :=
  if e = 292 then 17976931348623157 else (overflow - 1) / (tenPow e * one)

structure RangeFacts : Prop where
  overflow_le : overflow ≤ tenPow 309 * one
  tenPow_lt : nearest (tenPow 308) < limit
  overflow_up : roundUnits overflow 1 = limit
  small : roundUnits (nearest (tenPow 17) * nearest (tenPow 291)) one < limit
  large : ∀ i < 17,
    roundUnits (nearest (largestCoeff (292 + i)) * nearest (tenPow (292 + i))) one < limit
  largest_le : (overflow - 1) / (tenPow 292 * one) ≤ 17976931348623158
  largest_ne : ofDigits (ofUnits .toEven
    (roundUnits (17976931348623158 * tenPow 292 * one) 1)).digits ≠ 17976931348623158

theorem rangeFacts : RangeFacts := by
  constructor <;> decide +kernel

theorem fits_nearest (n : Nat) : Fits (nearest n) := fits_roundUnits _ _

theorem nearest_le_nearest {m n : Nat} (h : m ≤ n) : nearest m ≤ nearest n :=
  roundUnits_le_of_le (Nat.mul_le_mul_right _ h) 1

theorem nearest_one : nearest 1 = one := by
  have h : Fits one := ⟨1, 1074, by decide, by rw [one, Nat.one_mul]⟩
  rw [nearest, Nat.one_mul, roundUnits_of_fits h]

theorem one_le_nearest_tenPow (n : Nat) : one ≤ nearest (tenPow n) := by
  rw [← nearest_one]
  exact nearest_le_nearest (tenPow_pos n)

theorem nearest_tenPow_pos (n : Nat) : 0 < nearest (tenPow n) :=
  Nat.lt_of_lt_of_le one_pos (one_le_nearest_tenPow n)

theorem nearest_tenPow_lt_limit {n : Nat} (h : n ≤ 308) : nearest (tenPow n) < limit :=
  Nat.lt_of_le_of_lt (nearest_le_nearest (tenPow_le_tenPow h)) rangeFacts.tenPow_lt

theorem nearest_lt_limit {n : Nat} (h : n ≤ tenPow 18) : nearest n < limit :=
  Nat.lt_of_le_of_lt (nearest_le_nearest h) (nearest_tenPow_lt_limit (by decide))

theorem roundUnits_div_le {m : Nat} (h : Fits m) (n : Nat) :
    roundUnits (m * one) (nearest (tenPow n)) ≤ m := by
  calc roundUnits (m * one) (nearest (tenPow n)) ≤ roundUnits m 1 := by
        refine roundUnits_le_roundUnits (nearest_tenPow_pos n) Nat.one_pos ?_
        rw [Nat.mul_one]
        exact Nat.mul_le_mul_left m (one_le_nearest_tenPow n)
    _ = m := roundUnits_of_fits h

theorem round_eq_fin_with_neg {num den : Nat} {y : Finite64}
    (h : Binary64.round false num den = .fin y) (neg : Bool) :
    Binary64.round neg num den = .fin { y with neg } := by
  rw [Binary64.round] at h ⊢
  split at h
  case isTrue hlt =>
    cases h
    exact dif_pos hlt
  case isFalse => cases h

theorem product_eq_fin_with_neg {d : Decimal} {y : Finite64} (h : d.product false = .fin y)
    (neg : Bool) : d.product neg = .fin { y with neg } := by
  simp only [product, timesPower] at h ⊢
  split_ifs at h ⊢ <;> exact round_eq_fin_with_neg h neg

theorem exists_round_eq_fin {num den : Nat} (h : roundUnits num den < limit) (neg : Bool) :
    ∃ y, Binary64.round neg num den = .fin y :=
  ⟨_, dif_pos h⟩

theorem timesPower_zero (neg : Bool) (e : Int) :
    timesPower neg 0 e = .fin { Finite64.zero with neg } := by
  have hround {den : Nat} (hden : 0 < den) :
      Binary64.round neg 0 den = .fin { Finite64.zero with neg } := by
    simp only [Binary64.round, roundUnits_zero hden, limit_pos, dif_pos]
    rfl
  rw [timesPower]
  split
  · rw [Nat.zero_mul, hround one_pos]
  · rw [Nat.zero_mul, hround (nearest_tenPow_pos _)]

theorem exists_timesPower_eq_fin {m : Nat} {e : Int} (h : Fits m) (hm : m < limit) (he : e < 0)
    (neg : Bool) : ∃ y, timesPower neg m e = .fin y := by
  rw [timesPower, if_neg (by omega)]
  exact exists_round_eq_fin (Nat.lt_of_le_of_lt (roundUnits_div_le h _) hm) neg

theorem product_of_neg {d : Decimal} (hexp : d.exp < 0) (hcoeff : d.coeff ≤ tenPow 18)
    (neg : Bool) : ∃ y, d.product neg = .fin y := by
  have hlimit := nearest_lt_limit hcoeff
  have hfits := fits_nearest d.coeff
  rw [product]
  split
  case isTrue => exact exists_timesPower_eq_fin hfits hlimit hexp neg
  case isFalse =>
    exact exists_timesPower_eq_fin (fits_roundUnits _ _)
      (Nat.lt_of_le_of_lt (roundUnits_div_le hfits 308) hlimit) (by omega) neg

theorem lt_overflow_of_roundUnits_lt {n : Nat} (h : roundUnits n 1 < limit) : n < overflow := by
  refine Nat.lt_of_not_le fun hle ↦ ?_
  have hlimit := roundUnits_le_of_le hle 1
  rw [rangeFacts.overflow_up] at hlimit
  exact Nat.not_lt_of_le hlimit h

theorem roundUnits_of_small {s e : Nat} (hs : s ≤ tenPow 17) (he : e ≤ 291) :
    roundUnits (nearest s * nearest (tenPow e)) one < limit := by
  have hle := Nat.mul_le_mul (nearest_le_nearest hs) (nearest_le_nearest (tenPow_le_tenPow he))
  exact Nat.lt_of_le_of_lt (roundUnits_le_of_le hle one) rangeFacts.small

theorem unitsOf_natCast (s e : Nat) : unitsOf s e = roundUnits (s * tenPow e * one) 1 := by
  have hneg : (-(e : Int)).toNat = 0 := by omega
  rw [unitsOf, hneg, tenPow_zero, Int.toNat_natCast, Nat.mul_comm one, Nat.mul_assoc]

theorem Digits.Names.lt_overflow {d : Digits} {e : Nat} (hd : d.Names units) (h : units < limit)
    (he : d.point - d.digits.length = e) : ofDigits d.digits * tenPow e * one < overflow := by
  have hreads := hd.reads
  rw [he, unitsOf_natCast] at hreads
  exact lt_overflow_of_roundUnits_lt (hreads ▸ h)

theorem Digits.Names.exp_le {d : Digits} (hd : d.Names units) (h : units < limit) :
    d.point - d.digits.length ≤ 308 := by
  refine Int.le_of_not_gt fun hlt ↦ ?_
  have hoverflow := hd.lt_overflow (e := (d.point - d.digits.length).toNat) h (by omega)
  have hpos : 0 < ofDigits d.digits := by
    refine Nat.pos_of_ne_zero fun hzero ↦ ?_
    rw [hd.zero (.inr hzero)] at hlt
    exact absurd hlt (by decide)
  have hpow : tenPow 309 ≤ ofDigits d.digits * tenPow (d.point - d.digits.length).toNat :=
    Nat.le_trans (tenPow_le_tenPow (by omega)) (Nat.le_mul_of_pos_left _ hpos)
  have hle := Nat.le_trans rangeFacts.overflow_le (Nat.mul_le_mul_right one hpow)
  exact Nat.not_lt_of_le hle hoverflow

theorem coeff_le_largestCoeff {s e : Nat} (hlt : s * tenPow e * one < overflow)
    (h292 : e = 292 → s ≠ 17976931348623158) : s ≤ largestCoeff e := by
  have hle : s ≤ (overflow - 1) / (tenPow e * one) := by
    rw [Nat.le_div_iff_mul_le (Nat.mul_pos (tenPow_pos e) one_pos), ← Nat.mul_assoc]
    omega
  rw [largestCoeff]
  split
  case isTrue he =>
    have hne := h292 he
    rw [he] at hle
    have := Nat.le_trans hle rangeFacts.largest_le
    omega
  case isFalse => exact hle

/-- A product with a power of ten above one is finite too: where the shortest digits come near the
overflow, the three roundings do not pass it. -/
theorem roundUnits_ofUnits_lt {e : Nat}
    (he : (ofUnits .toEven x.units).point - (ofUnits .toEven x.units).digits.length = e) :
    roundUnits (nearest (ofDigits (ofUnits .toEven x.units).digits) * nearest (tenPow e)) one <
      limit := by
  have hnames := names_ofUnits .toEven x
  rcases Nat.lt_or_ge 291 e with hlarge | hsmall
  case inr => exact roundUnits_of_small hnames.coeff_le hsmall
  case inl =>
    -- too near to the overflow for a bound on the coefficient alone: one case for each exponent
    have hexp := hnames.exp_le x.bounded
    have h292 : e = 292 → ofDigits (ofUnits .toEven x.units).digits ≠ 17976931348623158 := by
      rintro rfl hcoeff
      have hreads := hnames.reads
      rw [he, unitsOf_natCast, hcoeff] at hreads
      rw [← hreads] at hcoeff
      exact rangeFacts.largest_ne hcoeff
    have hle := coeff_le_largestCoeff (hnames.lt_overflow x.bounded he) h292
    have htable := rangeFacts.large (e - 292) (by omega)
    rw [Nat.add_sub_of_le hlarge] at htable
    exact Nat.lt_of_le_of_lt
      (roundUnits_le_of_le (Nat.mul_le_mul_right _ (nearest_le_nearest hle)) one) htable

end Achievements.Decimal
