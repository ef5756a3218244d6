import Achievements.Proofs.Json.Numeral

namespace Achievements

open Decimal (Digits ofDigits tenPow zeros Canonical unitsOf)

open Json (numberLayout)

/-- The coefficient and the exponent that the text of a number shows. A whole number that is written
without an exponent has a zero behind its point. -/
def Decimal.Digits.shown (d : Digits) : Decimal :=
  if numberLayout.positional d.point ∧ d.digits.length ≤ d.point then
    ⟨ofDigits d.digits * tenPow (d.point - d.digits.length).toNat * 10, -1⟩
  else ⟨ofDigits d.digits, d.point - d.digits.length⟩

def Finite64.shown (x : Finite64) : Decimal := (Decimal.ofUnits .toEven x.units).shown

/-- The double that is read from the text of a double. -/
def Finite64.reread (x : Finite64) : Binary64 := x.shown.product x.neg

namespace Json.Numeral

open Text (IsRun)

variable {d : Digits} {n : Numeral} {units : Nat}

structure Writes (d : Digits) (n : Numeral) : Prop where
  proper : n.Proper
  text : n.text = (if n.neg then ['-'] else []) ++ d.write numberLayout
  decimal : n.decimal = d.shown
  float : n.frac ≠ [] ∨ n.exp ≠ none
  frac_le : n.frac.length ≤ 1000
  exp_le : ∀ neg ds, n.exp = some (neg, ds) → ofDigits ds ≤ 1000

theorem canonical_zero : Canonical ['0'] := ⟨by decide, fun _ ↦ rfl⟩

theorem canonical_take (h : Canonical d.digits) {k : Nat} (hk : 0 < k)
    (hhead : d.digits.head? ≠ some '0') : Canonical (d.digits.take k) := by
  refine ⟨⟨?_, fun c hc ↦ h.isRun.2 c (List.mem_of_mem_take hc)⟩, fun hz ↦ ?_⟩
  · simp [h.isRun.1, Nat.ne_of_gt hk]
  · rw [List.head?_take, if_neg (Nat.ne_of_gt hk)] at hz
    exact absurd hz hhead

theorem shown_of_lt (h : d.point < d.digits.length) :
    d.shown = ⟨ofDigits d.digits, d.point - d.digits.length⟩ := by
  rw [Digits.shown, if_neg]
  omega

theorem writes_below_one (hd : d.Names units) (hp : numberLayout.positional d.point = true)
    (h : d.point ≤ 0) (neg : Bool) :
    Writes d ⟨neg, ['0'], zeros (-d.point).toNat ++ d.digits, none⟩ where
  proper := by
    refine ⟨canonical_zero, fun c hc ↦ ?_, by simp⟩
    rcases List.mem_append.1 hc with hc | hc
    · exact Decimal.isDigit_of_mem_zeros hc
    · exact hd.canonical.isRun.2 c hc
  text := by
    simp [text, fractionText, exponentText, Digits.write, hp, Digits.plain, h,
      hd.canonical.isRun.1]
  decimal := by
    have hpos := List.length_pos_iff.2 hd.canonical.isRun.1
    rw [shown_of_lt (by omega), decimal, List.singleton_append, Decimal.ofDigits_zero_cons,
      Decimal.ofDigits_append, Decimal.ofDigits_zeros, Nat.mul_zero, Nat.zero_add,
      List.length_append, Decimal.length_zeros]
    congr 1
    simp only [exponentValue]
    omega
  float := .inl (by simp [hd.canonical.isRun.1])
  frac_le := by
    have := hd.low
    have := hd.high
    rw [List.length_append, Decimal.length_zeros]
    omega
  exp_le := by simp

theorem writes_whole (hd : d.Names units) (hp : numberLayout.positional d.point = true)
    (h : 0 < d.point) (hlength : d.digits.length ≤ d.point.toNat) (neg : Bool) :
    Writes d ⟨neg, d.digits ++ zeros (d.point.toNat - d.digits.length), ['0'], none⟩ where
  proper := by
    refine ⟨⟨⟨by simp [hd.canonical.isRun.1], fun c hc ↦ ?_⟩, fun hz ↦ ?_⟩,
      canonical_zero.isRun.2, by simp⟩
    · rcases List.mem_append.1 hc with hc | hc
      · exact hd.canonical.isRun.2 c hc
      · exact Decimal.isDigit_of_mem_zeros hc
    · rw [List.head?_append_of_ne_nil _ hd.canonical.isRun.1] at hz
      rw [hd.zero (.inl hz)]
      rfl
  text := by
    have hnot : ¬d.point ≤ 0 := by omega
    have hzero : numberLayout.pointZero = true := rfl
    simp [text, fractionText, exponentText, Digits.write, hp, Digits.plain, hnot, hlength, hzero]
  decimal := by
    have hle : (d.digits.length : Int) ≤ d.point := by omega
    have hzeros : (d.point - d.digits.length).toNat = d.point.toNat - d.digits.length := by omega
    rw [Digits.shown, if_pos ⟨hp, hle⟩, decimal, Decimal.ofDigits_append, Decimal.ofDigits_append,
      Decimal.ofDigits_zeros, Decimal.length_zeros, hzeros]
    congr 1
    rw [Nat.mul_comm (tenPow _) (ofDigits _)]
    exact Nat.mul_comm _ _
  float := .inl (by simp)
  frac_le := by simp
  exp_le := by simp

theorem writes_around_point (hd : d.Names units) (hp : numberLayout.positional d.point = true)
    (h : 0 < d.point) (hlength : ¬d.digits.length ≤ d.point.toNat) (neg : Bool) :
    Writes d ⟨neg, d.digits.take d.point.toNat, d.digits.drop d.point.toNat, none⟩ where
  proper := by
    refine ⟨canonical_take hd.canonical (by omega) fun hz ↦ ?_,
      fun c hc ↦ hd.canonical.isRun.2 c (List.mem_of_mem_drop hc), by simp⟩
    rw [hd.zero (.inl hz)] at hlength
    exact hlength (by decide)
  text := by
    have hnot : ¬d.point ≤ 0 := by omega
    have hdrop : d.digits.drop d.point.toNat ≠ [] := by simpa using hlength
    simp [text, fractionText, exponentText, Digits.write, hp, Digits.plain, hnot, hlength, hdrop]
  decimal := by
    rw [shown_of_lt (by omega), decimal, List.take_append_drop, List.length_drop]
    congr 1
    simp only [exponentValue]
    omega
  float := .inl (by simpa using hlength)
  frac_le := by
    have := hd.low
    have := hd.high
    rw [List.length_drop]
    omega
  exp_le := by simp

theorem writes_scientific (hd : d.Names units) (hp : ¬numberLayout.positional d.point = true)
    (neg : Bool) :
    Writes d ⟨neg, d.digits.take 1, d.digits.drop 1,
      some (decide (d.point - 1 < 0), Nat.toDigits 10 (d.point - 1).natAbs)⟩ where
  proper := by
    refine ⟨canonical_take hd.canonical Nat.one_pos fun hz ↦ ?_,
      fun c hc ↦ hd.canonical.isRun.2 c (List.mem_of_mem_drop hc), fun neg ds hds ↦ ?_⟩
    · rw [hd.zero (.inl hz)] at hp
      exact hp rfl
    · cases hds
      exact Decimal.isRun_toDigits _
  text := by
    have hpos := List.length_pos_iff.2 hd.canonical.isRun.1
    have hdrop : d.digits.drop 1 = [] ↔ d.digits.length = 1 := by
      rw [List.drop_eq_nil_iff]
      omega
    simp only [text, fractionText, exponentText, Digits.write, if_neg hp, Digits.scientific, hdrop,
      decide_eq_true_eq, List.append_assoc]
  decimal := by
    have hpos := List.length_pos_iff.2 hd.canonical.isRun.1
    have hexp : exponentValue
        (some (decide (d.point - 1 < 0), Nat.toDigits 10 (d.point - 1).natAbs)) = d.point - 1 := by
      simp only [exponentValue, Decimal.ofDigits_toDigits, decide_eq_true_eq]
      split <;> omega
    rw [Digits.shown, if_neg (fun h ↦ hp h.1), decimal, List.take_append_drop, List.length_drop,
      hexp]
    congr 1
    omega
  float := .inr (by simp)
  frac_le := by
    have := hd.low
    have := hd.high
    rw [List.length_drop]
    omega
  exp_le := by
    have := hd.low
    have := hd.high
    intro neg ds hds
    cases hds
    rw [Decimal.ofDigits_toDigits]
    omega

theorem exists_writes (hd : d.Names units) (neg : Bool) : ∃ n, Writes d n ∧ n.neg = neg := by
  by_cases hp : numberLayout.positional d.point = true
  · rcases Int.lt_or_le 0 d.point with h | h
    · by_cases hlength : d.digits.length ≤ d.point.toNat
      · exact ⟨_, writes_whole hd hp h hlength neg, rfl⟩
      · exact ⟨_, writes_around_point hd hp h hlength neg, rfl⟩
    · exact ⟨_, writes_below_one hd hp h neg, rfl⟩
  · exact ⟨_, writes_scientific hd hp neg, rfl⟩

theorem coeff_shown_le (hd : d.Names units) : d.shown.coeff ≤ tenPow 18 := by
  rw [Digits.shown]
  split
  case isTrue h =>
    have hlt := Decimal.ofDigits_lt hd.canonical.isRun.2
    have hpoint : d.point ≤ 16 := by
      have := h.1
      simp only [numberLayout, Bool.and_eq_true, decide_eq_true_eq] at this
      exact this.2
    calc ofDigits d.digits * tenPow (d.point - d.digits.length).toNat * 10
        ≤ tenPow d.digits.length * tenPow (d.point - d.digits.length).toNat * tenPow 1 :=
          Nat.mul_le_mul_right 10 (Nat.mul_le_mul_right _ (Nat.le_of_lt hlt))
      _ = tenPow (d.digits.length + (d.point - d.digits.length).toNat + 1) := by
          rw [Decimal.tenPow_add, Decimal.tenPow_add]
      _ ≤ tenPow 18 := Decimal.tenPow_le_tenPow (by omega)
  case isFalse => exact Nat.le_trans hd.coeff_le (by decide)

theorem exp_shown_bounds (hd : d.Names units) (h : units < Binary64.limit) :
    -340 ≤ d.shown.exp ∧ d.shown.exp ≤ 308 := by
  have hlow := hd.low
  have hhigh := hd.exp_le h
  rw [Digits.shown]
  split
  · exact ⟨by simp only; omega, by simp only; omega⟩
  · exact ⟨by simp only; omega, hhigh⟩

theorem unitsOf_shown (hd : d.Names units) : unitsOf d.shown.coeff d.shown.exp = units := by
  rw [Digits.shown]
  split
  case isTrue h =>
    have hexp : ((d.point - d.digits.length).toNat : Int) + ((1 : Nat) + -1) =
        d.point - d.digits.length := by omega
    rw [show (10 : Nat) = tenPow 1 from rfl, Decimal.unitsOf_mul_tenPow,
      Decimal.unitsOf_mul_tenPow, hexp, hd.reads]
  case isFalse => exact hd.reads

theorem shown_of_nonneg (h : 0 ≤ d.shown.exp) :
    d.shown = ⟨ofDigits d.digits, d.point - d.digits.length⟩ := by
  rw [Digits.shown] at h ⊢
  split at h
  case isTrue => exact absurd h (by simp)
  case isFalse hnot => rw [if_neg hnot]

theorem exists_product_shown (x : Finite64) (neg : Bool) :
    ∃ y, x.shown.product neg = .fin y := by
  have hd := Decimal.names_ofUnits .toEven x
  rw [Finite64.shown]
  rcases Int.lt_or_le (Decimal.ofUnits .toEven x.units).shown.exp 0 with hexp | hexp
  · exact Decimal.product_of_neg hexp (coeff_shown_le hd) neg
  · have hshown := shown_of_nonneg hexp
    rw [hshown] at hexp ⊢
    obtain ⟨e, he⟩ := Int.eq_ofNat_of_zero_le hexp
    simp only at he
    rw [Decimal.product, if_pos (by simp only; omega), Decimal.timesPower, if_pos hexp]
    refine Decimal.exists_round_eq_fin ?_ neg
    simp only [he, Int.toNat_natCast]
    exact Decimal.roundUnits_ofUnits_lt he

theorem spells_write (x : Finite64) : Spells (x.write numberLayout) (ofBinary64 x.reread) := by
  have hd := Decimal.names_ofUnits .toEven x
  obtain ⟨n, hn, hneg⟩ := exists_writes hd x.neg
  obtain ⟨y, hy⟩ := exists_product_shown x false
  rw [Finite64.shown] at hy
  have hcoeff := coeff_shown_le hd
  obtain ⟨hlow, hhigh⟩ := exp_shown_bounds hd x.bounded
  have hmagnitude : n.magnitude = finite? (n.decimal.product false) := by
    rw [magnitude_eq (by rw [hn.decimal]; exact Nat.lt_of_le_of_lt hcoeff (by decide)) hn.frac_le
      hn.exp_le, hn.decimal, scale_eq_product hcoeff (by omega) hhigh]
  have hproduct : n.decimal.product false = .fin y := hn.decimal ▸ hy
  have hvalue := value?_of_product hn.float hmagnitude hproduct
  have htext : x.write numberLayout = n.text := by
    rw [hn.text, hneg]
    rfl
  have hreread : x.reread = .fin { y with neg := n.neg } := by
    rw [Finite64.reread, hneg]
    exact Decimal.product_eq_fin_with_neg hy x.neg
  rw [htext, hreread]
  exact spells_text hn.proper hvalue

end Json.Numeral

namespace Finite64

open Json.Numeral

theorem exists_reread (x : Finite64) : ∃ y, x.reread = .fin y ∧ y.neg = x.neg := by
  obtain ⟨y, hy⟩ := exists_product_shown x false
  exact ⟨_, Decimal.product_eq_fin_with_neg hy x.neg, rfl⟩

theorem toBinary64_shown (x : Finite64) : x.shown.toBinary64 x.neg = .fin x := by
  have hd := Decimal.names_ofUnits .toEven x
  obtain ⟨hlow, hhigh⟩ := exp_shown_bounds hd x.bounded
  rw [shown]
  exact Decimal.toBinary64_of_unitsOf (by omega) (by omega) (unitsOf_shown hd)

end Finite64

end Achievements
