import Achievements.Score
import Achievements.Proofs.Binary64.Order

namespace Achievements

open Binary64

open Finite64 (one)

def Binary64.IsCount (x : Binary64) (n : Nat) : Prop :=
  ∃ y : Finite64, x = .fin y ∧ y.neg = false ∧ y.units = n * one

namespace Binary64

variable {x : Binary64} {n : Nat} {k : Int}

theorem isCount_zero : IsCount zero 0 := ⟨.zero, rfl, rfl, (Nat.zero_mul one).symm⟩

theorem isCount_ofNat (h : n < twoPow 53) : IsCount (ofNat n) n := by
  have hfits : roundUnits (n * one) 1 = n * one := by
    apply roundUnits_of_fits
    rw [one]
    exact fits_mul_twoPow (Nat.le_of_lt h) 1074
  have hlimit : roundUnits (n * one) 1 < limit := by
    rw [hfits, limit]
    calc n * one < twoPow 53 * one := Nat.mul_lt_mul_of_pos_right h (twoPow_pos 1074)
      _ = twoPow (53 + 1074) := by rw [twoPow_add, one]
      _ ≤ twoPow 2098 := twoPow_le_twoPow (by decide)
  rw [ofNat, round, dif_pos hlimit]
  exact ⟨_, rfl, rfl, hfits⟩

theorem IsCount.place? (h : IsCount x n) : x.place? = some (n * one : Int) := by
  obtain ⟨y, rfl, hneg, hunits⟩ := h
  rw [Binary64.place?, Finite64.place, hneg, hunits, Int.natCast_mul]
  rfl

theorem IsCount.toUInt32 {n : UInt32} (h : IsCount x n.toNat) : x.toUInt32 = n := by
  obtain ⟨y, rfl, hneg, hunits⟩ := h
  have hdiv : n.toNat * one / one = n.toNat := Nat.mul_div_cancel _ (twoPow_pos 1074)
  have hmin : min n.toNat 0xffffffff = n.toNat := Nat.min_eq_left (Nat.le_of_lt_succ n.toNat_lt)
  rw [Binary64.toUInt32, hneg, hunits, hdiv, hmin]
  simp

end Binary64

namespace Score

/-- How a score comes to hold a count under a name: one of the counting setters wrote it and
nothing has been written under this name since, or nothing was ever written under it. -/
inductive Counts : Score → String → UInt32 → Prop
  | absent {name : String} {s : Score} (h : s.get? name = none) : Counts s name 0
  | mods (s : Score) (n : UInt32) : Counts (s.withMods n) "mods" n
  | maxCombo (s : Score) (n : UInt32) : Counts (s.withMaxCombo n) "max_combo" n
  | combo (s : Score) (n : UInt32) : Counts (s.withMaxCombo n) "combo" n
  | n300 (s : Score) (n n100 n50 nmiss : UInt32) : Counts (s.withHits n n100 n50 nmiss) "300" n
  | n100 (s : Score) (n300 n n50 nmiss : UInt32) : Counts (s.withHits n300 n n50 nmiss) "100" n
  | n50 (s : Score) (n300 n100 n nmiss : UInt32) : Counts (s.withHits n300 n100 n nmiss) "50" n
  | miss (s : Score) (n300 n100 n50 n : UInt32) : Counts (s.withHits n300 n100 n50 n) "miss" n
  | geki (s : Score) (n nkatu : UInt32) : Counts (s.withGekiKatu n nkatu) "geki" n
  | katu (s : Score) (ngeki n : UInt32) : Counts (s.withGekiKatu ngeki n) "katu" n
  | set {name : String} {n : UInt32} {s : Score} (h : Counts s name n) {other : String}
      (hne : name ≠ other) (x : Binary64) : Counts (s.set other x) name n

theorem read_set (s : Score) (name other : String) (x : Binary64) :
    (s.set other x).read name = if name = other then x else s.read name := by
  rw [read, get?_set]
  split <;> rfl

theorem isCount_read {name : String} {n : UInt32} {s : Score} (h : Counts s name n) :
    IsCount (s.read name) n.toNat := by
  have hcount (n : UInt32) : IsCount (ofNat n.toNat) n.toNat :=
    isCount_ofNat (Nat.lt_trans n.toNat_lt (by decide))
  induction h with
  | absent h =>
    rw [read, h]
    exact isCount_zero
  | set h hne x ih =>
    rw [read_set, if_neg hne]
    exact ih
  | _ =>
    simp only [withMods, withMaxCombo, withHits, withGekiKatu, setCount, read_set,
      String.reduceEq, if_false, if_true, hcount]

end Score

namespace Binary64

variable {x : Binary64} {n : Nat}

theorem place?_sub_fin (y z : Finite64) :
    ((sub (fin y) (fin z)).abs).place? =
      some ((min (roundUnits (y.place - z.place).natAbs 1) limit : Nat) : Int) := by
  rw [place?_abs, sub, place?_round, Option.map_some, natAbs_signed]

theorem place?_epsilon : epsilon.place? = some (twoPow 1022 : Int) := by
  have hfits : Fits (twoPow 1022) := ⟨1, 1022, by decide, (Nat.one_mul _).symm⟩
  have hlimit : twoPow 1022 ≤ limit := twoPow_le_twoPow (by decide)
  rw [epsilon, place?_round, roundUnits_of_fits hfits, Nat.min_eq_left hlimit]
  rfl

theorem fits_one : Fits one := by
  rw [one]
  exact ⟨1, 1074, by decide, (Nat.one_mul _).symm⟩

theorem near_iff {y z : Finite64} (h : y.place = z.place ∨ one ≤ (y.place - z.place).natAbs) :
    ((sub (fin y) (fin z)).abs).lt epsilon = true ↔ y.place = z.place := by
  rw [lt_iff (place?_sub_fin y z) place?_epsilon]
  have hpos := twoPow_pos 1022
  rcases h with h | h
  · have hzero : (y.place - z.place).natAbs = 0 := by omega
    rw [hzero, roundUnits_zero Nat.one_pos]
    simp only [h, iff_true]
    omega
  · have hround := roundUnits_le_of_le h 1
    have hone : twoPow 1022 ≤ one := twoPow_le_twoPow (by decide)
    have hlimit : twoPow 1022 ≤ limit := twoPow_le_twoPow (by decide)
    rw [roundUnits_of_fits fits_one] at hround
    constructor
    · omega
    · intro heq
      rw [heq] at h
      omega

end Binary64

namespace Comparison

variable {x : Binary64} {n : UInt32}

theorem natAbs_count_lt (n : UInt32) : (n.toNat : Int).natAbs < twoPow 53 :=
  Nat.lt_trans n.toNat_lt (by decide)

theorem holds_equal_iff (h : IsCount x n.toNat) (k : Int64) :
    equal.holds x (.ofInt k.toInt) = true ↔ (n.toNat : Int) = k.toInt := by
  have hk : k.toInt.natAbs ≤ twoPow 64 := by
    have hlower := k.le_toInt
    have hupper := k.toInt_lt
    have hpow : twoPow 64 = 0x10000000000000000 := rfl
    omega
  obtain ⟨z, hz, hplace⟩ := exists_ofInt_eq_fin hk
  have hcount := h.place?
  obtain ⟨y, rfl, -⟩ := h
  obtain hy : y.place = n.toNat * one := Option.some.inj hcount
  rw [holds, hz, near_iff, hy, hplace, eq_intPlace_iff (natAbs_count_lt n)]
  rw [hy, hplace, eq_intPlace_iff (natAbs_count_lt n)]
  exact Decidable.or_iff_not_imp_left.2 (one_le_natAbs_sub_intPlace (natAbs_count_lt n))

theorem holds_atLeast_iff (h : IsCount x n.toNat) (k : Int64) :
    atLeast.holds x (.ofInt k.toInt) = true ↔ k.toInt ≤ n.toNat := by
  rw [holds, le_iff (place?_ofInt k.toInt) h.place?, intPlace_le_iff (natAbs_count_lt n)]

end Comparison

theorem Condition.holds_range_iff {s : Score} {stat : String} {n : UInt32}
    (h : IsCount (s.read stat) n.toNat) (lo hi : Int64) :
    (Condition.range stat (.int lo) (.int hi)).holds s = true ↔
      lo.toInt ≤ n.toNat ∧ (n.toNat : Int) < hi.toInt := by
  have hlo := le_iff (place?_ofInt lo.toInt) h.place?
  have hhi := lt_iff h.place? (place?_ofInt hi.toInt)
  rw [intPlace_le_iff (Comparison.natAbs_count_lt n)] at hlo
  rw [← Int.not_le, intPlace_le_iff (Comparison.natAbs_count_lt n), Int.not_le] at hhi
  rw [holds, Bool.and_eq_true, Number.value, hlo, Number.value, hhi]

/-- On a stat that holds a count every condition with integer literals says what it says about
integers: no literal is so large, and no count so close to it, that rounding could be seen. -/
theorem Score.holds_count_iff {s : Score} {stat : String} {n : UInt32} (h : s.Counts stat n)
    (mask equals : UInt32) (k lo hi : Int64) :
    ((Condition.compare stat .equal (.int k)).holds s = true ↔ (n.toNat : Int) = k.toInt) ∧
    ((Condition.compare stat .atLeast (.int k)).holds s = true ↔ k.toInt ≤ n.toNat) ∧
    ((Condition.range stat (.int lo) (.int hi)).holds s = true ↔
      lo.toInt ≤ n.toNat ∧ (n.toNat : Int) < hi.toInt) ∧
    ((Condition.bitEq stat mask equals).holds s = true ↔
      n.toNat &&& mask.toNat = equals.toNat) ∧
    ((Condition.bitNe stat mask).holds s = true ↔ n.toNat &&& mask.toNat ≠ 0) := by
  have hread := isCount_read h
  refine ⟨Comparison.holds_equal_iff hread k, Comparison.holds_atLeast_iff hread k,
    Condition.holds_range_iff hread lo hi, ?_, ?_⟩
  · rw [Condition.holds, hread.toUInt32, decide_eq_true_eq, ← UInt32.toNat_inj, UInt32.toNat_and]
  · rw [Condition.holds, hread.toUInt32, decide_eq_true_eq, ne_eq, ← UInt32.toNat_inj,
      UInt32.toNat_and, UInt32.toNat_zero]

theorem Score.holds_largest_count :
    let s : Score := (({} : Score).withHits 0xffffffff 0 0 0).withStarRating .nan
    s.Counts "300" 0xffffffff ∧
      (Condition.compare "300" .equal (.int 4294967295)).holds s = true ∧
      (Condition.compare "300" .atLeast (.int .maxValue)).holds s = false ∧
      (Condition.range "300" (.int .minValue) (.int 4294967296)).holds s = true ∧
      (Condition.bitEq "300" 6 6).holds s = true ∧
      (Condition.bitNe "300" 0).holds s = false := by
  intro s
  have hcounts : s.Counts "300" 0xffffffff := .set (.n300 _ _ _ _ _) (by decide) .nan
  obtain ⟨hequal, -, hrange, hbits, -⟩ :=
    holds_count_iff hcounts 6 6 4294967295 .minValue 4294967296
  obtain ⟨-, hmost, -, -, hnone⟩ := holds_count_iff hcounts 0 0 .maxValue 0 0
  refine ⟨hcounts, hequal.2 (by decide), ?_, hrange.2 (by decide), hbits.2 (by decide), ?_⟩
  · rw [← Bool.not_eq_true, hmost]
    decide
  · rw [← Bool.not_eq_true, hnone]
    decide

end Achievements
