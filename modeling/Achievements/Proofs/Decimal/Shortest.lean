import Achievements.Proofs.Binary64.Rounding
import Achievements.Proofs.Decimal.Digits

namespace Achievements.Decimal

open Binary64

open Finite64 (one)

variable {tie : Tie} {units : Nat} {d : Decimal} {x : Finite64}

theorem one_pos : 0 < one := twoPow_pos 1074

/-- The units of the double nearest to `s · 10 ^ e`. -/
def unitsOf (s : Nat) (e : Int) : Nat :=
  roundUnits (s * (one * tenPow e.toNat)) (tenPow (-e).toNat)

theorem unitsOf_zero (e : Int) : unitsOf 0 e = 0 := by
  rw [unitsOf, Nat.zero_mul, roundUnits_zero (tenPow_pos _)]

theorem unitsOf_mul_tenPow (s z : Nat) (e : Int) :
    unitsOf (s * tenPow z) e = unitsOf s (z + e) := by
  have hexp : z + e.toNat + (-(z + e)).toNat = (z + e).toNat + (-e).toNat := by omega
  have hpow := congrArg tenPow hexp
  simp only [tenPow_add] at hpow
  refine roundUnits_congr (tenPow_pos _) (tenPow_pos _) ?_
  generalize one = u
  calc s * tenPow z * (u * tenPow e.toNat) * tenPow (-(z + e)).toNat
      = s * u * (tenPow z * tenPow e.toNat * tenPow (-(z + e)).toNat) := by ac_rfl
    _ = s * u * (tenPow (z + e).toNat * tenPow (-e).toNat) := by rw [hpow]
    _ = s * (u * tenPow (z + e).toNat) * tenPow (-e).toNat := by ac_rfl

theorem toBinary64_eq_round (hhuge : ¬(d.coeff ≠ 0 ∧ 400 < d.exp))
    (htiny : ¬(d.coeff = 0 ∨ d.exp < -400 - d.coeff.log2)) (neg : Bool) :
    d.toBinary64 neg =
      .round neg (d.coeff * (one * tenPow d.exp.toNat)) (tenPow (-d.exp).toNat) := by
  rw [toBinary64, if_neg hhuge, if_neg htiny]
  split
  case isTrue h =>
    have hneg : (-d.exp).toNat = 0 := by omega
    rw [hneg, tenPow_zero, Nat.mul_assoc, Nat.mul_comm one]
  case isFalse h =>
    have hpos : d.exp.toNat = 0 := by omega
    rw [hpos, tenPow_zero, Nat.mul_one]

theorem toBinary64_of_unitsOf (hlow : -400 ≤ d.exp) (hhigh : d.exp ≤ 400)
    (h : unitsOf d.coeff d.exp = x.units) : d.toBinary64 x.neg = .fin x := by
  obtain ⟨neg, units, fits, bounded⟩ := x
  by_cases h0 : d.coeff = 0
  · rw [h0, unitsOf_zero] at h
    subst h
    simp [toBinary64, h0, Finite64.zero]
  · rw [toBinary64_eq_round (by omega) (by omega), Binary64.round]
    simp only [unitsOf] at h
    simp only [h, bounded, dif_pos]

theorem readsAs_of_unitsOf (hlow : -400 ≤ d.exp) (hhigh : d.exp ≤ 400)
    (h : unitsOf d.coeff d.exp = x.units) : readsAs x.units d = true := by
  have := toBinary64_of_unitsOf (x := { x with neg := false }) hlow hhigh h
  simp [readsAs, this]

theorem coeff_pos_of_readsAs (hu : 0 < units) (h : readsAs units d = true) : 0 < d.coeff := by
  refine Nat.pos_of_ne_zero fun h0 ↦ ?_
  simp only [readsAs, toBinary64, h0, ne_eq, not_true_eq_false, false_and, if_false, true_or,
    if_true, Finite64.zero, decide_eq_true_eq] at h
  omega

theorem unitsOf_of_readsAs (hu : 0 < units) (h : readsAs units d = true) :
    unitsOf d.coeff d.exp = units := by
  -- what is too large or too small for the powers of ten is read as no positive number of units
  by_cases hhuge : d.coeff ≠ 0 ∧ 400 < d.exp
  · simp [readsAs, toBinary64, hhuge] at h
  by_cases htiny : d.coeff = 0 ∨ d.exp < -400 - d.coeff.log2
  · simp only [readsAs, toBinary64, hhuge, htiny, if_false, if_true, Finite64.zero,
      decide_eq_true_eq] at h
    omega
  rw [readsAs, toBinary64_eq_round hhuge htiny, Binary64.round] at h
  split at h
  case h_1 y hy =>
    split at hy
    case isTrue =>
      cases hy
      exact of_decide_eq_true h
    case isFalse => cases hy
  case h_2 => cases h

theorem lt_tenPow_iff (a c n : Nat) (e : Int) :
    a * tenPow (-(n + e)).toNat < c * tenPow (n + e).toNat ↔
      a * tenPow (-e).toNat < tenPow n * (c * tenPow e.toNat) := by
  have hexp : (n + e).toNat + (-e).toNat = n + e.toNat + (-(n + e)).toNat := by omega
  have hpow := congrArg tenPow hexp
  simp only [tenPow_add] at hpow
  rw [← Nat.mul_lt_mul_right (tenPow_pos (-e).toNat),
    ← Nat.mul_lt_mul_right (b := a * tenPow (-e).toNat) (tenPow_pos (-(n + e)).toNat),
    Nat.mul_right_comm a, Nat.mul_assoc c, hpow]
  have hcomm : c * (tenPow n * tenPow e.toNat * tenPow (-(n + e)).toNat) =
      tenPow n * (c * tenPow e.toNat) * tenPow (-(n + e)).toNat := by ac_rfl
  rw [hcomm]

theorem lt_tenPow_pointOf (hu : 0 < units) :
    units * tenPow (-pointOf units).toNat < one * tenPow (pointOf units).toNat := by
  rw [pointOf]
  split
  case isTrue h =>
    have hlt := lt_tenPow_width (units / one)
    rw [Nat.div_lt_iff_lt_mul one_pos] at hlt
    have hneg : (-(width (units / one) : Int)).toNat = 0 := by omega
    rwa [hneg, Int.toNat_natCast, Nat.mul_comm one, tenPow_zero, Nat.mul_one]
  case isFalse h =>
    have hq : 0 < (one - 1) / units := Nat.div_pos (by omega) hu
    have hle := tenPow_width_le hq
    have hw := width_pos ((one - 1) / units)
    rw [Nat.le_div_iff_mul_le hu, Nat.mul_comm] at hle
    have hlt := Nat.lt_of_le_of_lt hle (Nat.sub_one_lt_of_lt one_pos)
    generalize width ((one - 1) / units) = w at hlt hw ⊢
    have hneg : (-(1 - (w : Int))).toNat = w - 1 := by omega
    have hpos : (1 - (w : Int)).toNat = 0 := by omega
    simpa only [hneg, hpos, tenPow_zero, Nat.mul_one] using hlt

theorem tenPow_pointOf_le (hu : 0 < units) :
    one * tenPow (pointOf units - 1).toNat ≤ units * tenPow (-(pointOf units - 1)).toNat := by
  rw [pointOf]
  split
  case isTrue h =>
    have hle := tenPow_width_le (Nat.div_pos h one_pos)
    rw [Nat.le_div_iff_mul_le one_pos, Nat.mul_comm] at hle
    have hw := width_pos (units / one)
    have hneg : (-((width (units / one) : Int) - 1)).toNat = 0 := by omega
    have hpos : ((width (units / one) : Int) - 1).toNat = width (units / one) - 1 := by omega
    simpa only [hneg, hpos, tenPow_zero, Nat.mul_one] using hle
  case isFalse h =>
    have hlt := lt_tenPow_width ((one - 1) / units)
    rw [Nat.div_lt_iff_lt_mul hu, Nat.mul_comm] at hlt
    have hle : one ≤ units * tenPow (width ((one - 1) / units)) := by omega
    generalize width ((one - 1) / units) = w at hle ⊢
    have hneg : (-(1 - (w : Int) - 1)).toNat = w := by omega
    have hpos : (1 - (w : Int) - 1).toNat = 0 := by omega
    simpa only [hneg, hpos, tenPow_zero, Nat.mul_one] using hle

theorem pointOf_bounds (h : units < limit) : -323 ≤ pointOf units ∧ pointOf units ≤ 309 := by
  rw [pointOf]
  split
  case isTrue =>
    have hw : width (units / one) ≤ 309 := by
      rw [width_le_iff (by decide), Nat.div_lt_iff_lt_mul one_pos]
      exact Nat.lt_of_lt_of_le h (by decide +kernel)
    omega
  case isFalse =>
    have hw : width ((one - 1) / units) ≤ 324 := by
      rw [width_le_iff (by decide)]
      exact Nat.lt_of_le_of_lt (Nat.div_le_self _ _) (by decide +kernel)
    have := width_pos ((one - 1) / units)
    omega

section Grid

variable {exp : Int}

def floorOn (units : Nat) (exp : Int) : Nat :=
  units * tenPow (-exp).toNat / (one * tenPow exp.toNat)

def nearerOn (tie : Tie) (num den : Nat) : Nat :=
  if tie.prefersLow (num / den) (num % den) den then num / den else num / den + 1

def fartherOn (tie : Tie) (num den : Nat) : Nat :=
  if tie.prefersLow (num / den) (num % den) den then num / den + 1 else num / den

theorem floorOn_lt (hu : 0 < units) (n : Nat) : floorOn units (pointOf units - n) < tenPow n := by
  rw [floorOn, Nat.div_lt_iff_lt_mul (Nat.mul_pos one_pos (tenPow_pos _)), ← lt_tenPow_iff]
  have hpoint : (n : Int) + (pointOf units - n) = pointOf units := by omega
  rw [hpoint]
  exact lt_tenPow_pointOf hu

theorem onGrid_eq (tie : Tie) (units : Nat) (exp : Int) :
    onGrid tie units exp =
      let num := units * tenPow (-exp).toNat
      let den := one * tenPow exp.toNat
      if readsAs units ⟨nearerOn tie num den, exp⟩ then some ⟨nearerOn tie num den, exp⟩
      else if readsAs units ⟨fartherOn tie num den, exp⟩ then some ⟨fartherOn tie num den, exp⟩
      else none := by
  have hnum : (if 0 ≤ exp then units else units * tenPow (-exp).toNat) =
      units * tenPow (-exp).toNat := by
    split
    case isTrue h => rw [Int.toNat_of_nonpos (by omega), tenPow_zero, Nat.mul_one]
    case isFalse => rfl
  have hden : (if 0 ≤ exp then one * tenPow exp.toNat else one) = one * tenPow exp.toNat := by
    split
    case isTrue => rfl
    case isFalse h => rw [Int.toNat_of_nonpos (by omega), tenPow_zero, Nat.mul_one]
  by_cases hlow : tie.prefersLow (units * tenPow (-exp).toNat / (one * tenPow exp.toNat))
      (units * tenPow (-exp).toNat % (one * tenPow exp.toNat)) (one * tenPow exp.toNat) = true
  · simp only [onGrid, hnum, hden, nearerOn, fartherOn, hlow, if_true]
  · simp only [onGrid, hnum, hden, nearerOn, fartherOn, hlow, if_false, Bool.false_eq_true]

theorem nearerOn_le (tie : Tie) (num den : Nat) : nearerOn tie num den ≤ num / den + 1 := by
  rw [nearerOn]
  split <;> omega

theorem fartherOn_le (tie : Tie) (num den : Nat) : fartherOn tie num den ≤ num / den + 1 := by
  rw [fartherOn]
  split <;> omega

theorem onGrid_eq_some (h : onGrid tie units exp = some d) :
    readsAs units d = true ∧ d.exp = exp ∧ d.coeff ≤ floorOn units exp + 1 := by
  simp only [onGrid_eq] at h
  split at h
  case isTrue hread => exact Option.some.inj h ▸ ⟨hread, rfl, nearerOn_le _ _ _⟩
  case isFalse =>
    split at h
    case isTrue hread => exact Option.some.inj h ▸ ⟨hread, rfl, fartherOn_le _ _ _⟩
    case isFalse => cases h

theorem nearerOn_bounds (tie : Tie) (num : Nat) {den : Nat} (hden : 0 < den) :
    2 * num ≤ 2 * (nearerOn tie num den * den) + den ∧
      2 * (nearerOn tie num den * den) ≤ 2 * num + den := by
  have hmod := Nat.div_add_mod num den
  have hlt := Nat.mod_lt num hden
  rw [Nat.mul_comm] at hmod
  rw [nearerOn]
  split
  case isTrue hlow =>
    have : 2 * (num % den) ≤ den := by
      unfold Tie.prefersLow at hlow
      split at hlow
      case isTrue htie => exact Nat.le_of_eq htie
      case isFalse => exact Nat.le_of_lt (of_decide_eq_true hlow)
    omega
  case isFalse hlow =>
    have : den ≤ 2 * (num % den) := by
      unfold Tie.prefersLow at hlow
      split at hlow
      case isTrue htie => exact Nat.le_of_eq htie.symm
      case isFalse => simpa using hlow
    rw [Nat.add_mul, Nat.one_mul]
    omega

theorem unitsOf_nearerOn (tie : Tie)
    (hfine : tenPow 16 * (one * tenPow exp.toNat) ≤ x.units * tenPow (-exp).toNat) :
    unitsOf (nearerOn tie (x.units * tenPow (-exp).toNat) (one * tenPow exp.toNat)) exp =
      x.units := by
  have hden := Nat.mul_pos one_pos (tenPow_pos exp.toNat)
  obtain ⟨hbelow, habove⟩ := nearerOn_bounds tie (x.units * tenPow (-exp).toNat) hden
  rw [unitsOf]
  generalize one * tenPow exp.toNat = den at hfine hden hbelow habove
  exact roundUnits_eq_of_grid x.fits (tenPow_pos _) hden hfine hbelow habove

theorem isSome_onGrid_seventeen (tie : Tie) (hx : 0 < x.units) :
    (onGrid tie x.units (pointOf x.units - 17)).isSome = true := by
  obtain ⟨hlow, hhigh⟩ := pointOf_bounds x.bounded
  have hpoint : pointOf x.units - 1 = (16 : Nat) + (pointOf x.units - 17) := by omega
  have hfine := tenPow_pointOf_le hx
  rw [hpoint, ← Nat.not_lt, lt_tenPow_iff, Nat.not_lt] at hfine
  generalize hexp : pointOf x.units - 17 = exp at hfine
  have hread : readsAs x.units
      ⟨nearerOn tie (x.units * tenPow (-exp).toNat) (one * tenPow exp.toNat), exp⟩ = true :=
    readsAs_of_unitsOf (by simp only; omega) (by simp only; omega) (unitsOf_nearerOn tie hfine)
  rw [onGrid_eq, if_pos hread]
  rfl

end Grid

theorem exists_onGrid_eq_shortest (tie : Tie) (hx : 0 < x.units) :
    ∃ n : Nat, n ≤ 17 ∧ onGrid tie x.units (pointOf x.units - n) = some (shortest tie x.units) := by
  rw [shortest]
  cases h : (List.range 17).findSome? fun n : Nat ↦
      onGrid tie x.units (pointOf x.units - (n + 1)) with
  | none =>
    -- the last grid that was tried is that of seventeen digits
    have hnone := List.findSome?_eq_none_iff.1 h 16 (by simp)
    have hsome := isSome_onGrid_seventeen tie hx
    rw [show pointOf x.units - 17 = pointOf x.units - ((16 : Nat) + 1) from rfl, hnone] at hsome
    cases hsome
  | some d =>
    obtain ⟨n, hn, hgrid⟩ := List.exists_of_findSome?_eq_some h
    exact ⟨n + 1, List.mem_range.1 hn, hgrid⟩

/-- Digits and a point that stand for a double of this many units. -/
structure Digits.Names (units : Nat) (d : Digits) : Prop where
  canonical : Canonical d.digits
  zero : d.digits.head? = some '0' ∨ ofDigits d.digits = 0 → d = ⟨['0'], 1⟩
  coeff_le : ofDigits d.digits ≤ tenPow 17
  low : -340 ≤ d.point - d.digits.length
  high : d.point ≤ 400
  reads : unitsOf (ofDigits d.digits) (d.point - d.digits.length) = units

theorem names_zero : Digits.Names 0 ⟨['0'], 1⟩ where
  canonical := ⟨by decide, fun _ ↦ rfl⟩
  zero _ := rfl
  coeff_le := by decide
  low := by decide
  high := by decide
  reads := unitsOf_zero _

theorem names_ofUnits (tie : Tie) (x : Finite64) : Digits.Names x.units (ofUnits tie x.units) := by
  rw [ofUnits]
  split
  case isTrue hx =>
    rw [hx]
    exact names_zero
  case isFalse hx =>
    have hx := Nat.pos_of_ne_zero hx
    obtain ⟨n, hn, hgrid⟩ := exists_onGrid_eq_shortest tie hx
    obtain ⟨hread, hexp, hcoeff⟩ := onGrid_eq_some hgrid
    generalize shortest tie x.units = d at hread hexp hcoeff
    have hle : d.coeff ≤ tenPow 17 :=
      Nat.le_trans hcoeff (Nat.le_trans (floorOn_lt hx n) (tenPow_le_tenPow hn))
    have hwidth : width d.coeff ≤ 18 :=
      (width_le_iff (by decide)).2 (Nat.lt_of_le_of_lt hle (by decide))
    obtain ⟨hlow, hhigh⟩ := pointOf_bounds x.bounded
    have hpos := coeff_pos_of_readsAs hx hread
    obtain ⟨hcanonical, hhead, z, hz, hlength, hpoint⟩ := toDigits_of_pos hpos
    refine ⟨hcanonical, fun h ↦ ?_, ?_, by omega, by omega, ?_⟩
    · rcases h with h | h
      · exact absurd h hhead
      · rw [h, Nat.zero_mul] at hz
        exact absurd hz (Nat.ne_of_gt hpos)
    · exact Nat.le_trans (Nat.le_mul_of_pos_right _ (tenPow_pos z)) (hz ▸ hle)
    · have hreads := unitsOf_of_readsAs hx hread
      have he : d.toDigits.point - d.toDigits.digits.length = z + d.exp := by omega
      rwa [hz, unitsOf_mul_tenPow, ← he] at hreads

end Achievements.Decimal
