import Achievements.Proofs.Clause.Literal
import Achievements.Proofs.Decimal.Digits
import Mathlib.Data.Nat.Digits.Defs

namespace Achievements

open Text

variable {cs ds : List Char}

namespace Decimal

/-- One or more digits, the last one being that of the ones. -/
structure StandsFor (ds : List Char) (n : Nat) : Prop where
  isRun : IsRun Char.isDigit ds
  places : Nat.ofDigits 10 (ds.reverse.map fun d ↦ d.toNat - '0'.toNat) = n

theorem ofDigits_eq_places (ds : List Char) :
    ofDigits ds = Nat.ofDigits 10 (ds.reverse.map fun d ↦ d.toNat - '0'.toNat) := by
  induction ds using List.reverseRecOn with
  | nil => rfl
  | append_singleton ds d ih =>
    have hd : ofDigits [d] = d.toNat - '0'.toNat := Nat.zero_add _
    rw [ofDigits_append, hd, ih, List.reverse_append, List.map_append, List.reverse_singleton,
      List.map_singleton, List.singleton_append, Nat.ofDigits_cons]
    exact Nat.add_comm _ _

theorem standsFor_iff {n : Nat} : StandsFor ds n ↔ IsRun Char.isDigit ds ∧ ofDigits ds = n := by
  rw [ofDigits_eq_places]
  exact ⟨fun h ↦ ⟨h.isRun, h.places⟩, fun h ↦ ⟨h.1, h.2⟩⟩

theorem natural?_eq_some_iff {n : Nat} : natural? cs = some n ↔ StandsFor cs n := by
  rw [standsFor_iff]
  constructor
  · intro h
    obtain ⟨hrun, rfl⟩ : (cs ≠ [] ∧ cs.all Char.isDigit = true) ∧ ofDigits cs = n := by
      simpa [natural?] using h
    exact ⟨⟨hrun.1, List.all_eq_true.1 hrun.2⟩, rfl⟩
  · rintro ⟨hrun, rfl⟩
    exact natural?_of_isRun hrun

theorem unsigned?_eq_some_iff {n : Nat} :
    unsigned? cs = some n ↔ ∃ ds, (cs = ds ∨ cs = '+' :: ds) ∧ StandsFor ds n := by
  constructor
  · intro h
    unfold unsigned? at h
    split at h
    · exact ⟨_, .inr rfl, natural?_eq_some_iff.1 h⟩
    · exact ⟨_, .inl rfl, natural?_eq_some_iff.1 h⟩
  · rintro ⟨ds, rfl | rfl, h⟩
    · obtain ⟨hrun, rfl⟩ := standsFor_iff.1 h
      exact unsigned?_of_isRun hrun
    · exact natural?_eq_some_iff.2 h

theorem integer?_eq_some_iff {v : Int} :
    integer? cs = some v ↔ ∃ ds n, StandsFor ds n ∧
      ((cs = ds ∨ cs = '+' :: ds) ∧ v = n ∨ cs = '-' :: ds ∧ v = -n) := by
  constructor
  · intro h
    obtain ⟨_, hv, rfl⟩ := Option.map_eq_some_iff.1 h
    obtain ⟨n, hn, ⟨⟩⟩ := Option.bind_eq_some_iff.1 hv
    refine ⟨_, n, natural?_eq_some_iff.1 hn, ?_⟩
    unfold sign
    split
    · exact .inr ⟨rfl, rfl⟩
    · exact .inl ⟨.inr rfl, rfl⟩
    · exact .inl ⟨.inl rfl, rfl⟩
  · rintro ⟨ds, n, h, ⟨rfl | rfl, rfl⟩ | ⟨rfl, rfl⟩⟩
    · obtain ⟨hrun, rfl⟩ := standsFor_iff.1 h
      exact integer?_of_isRun hrun
    · simp [integer?, sign, natural?_eq_some_iff.2 h]
    · simp [integer?, sign, natural?_eq_some_iff.2 h]

theorem point_not_mem_of_integer? {v : Int} (h : integer? cs = some v) : '.' ∉ cs := by
  obtain ⟨ds, n, hds, hcs⟩ := integer?_eq_some_iff.1 h
  have hpoint := isRun_not_mem hds.isRun isDigit_point
  rcases hcs with ⟨rfl | rfl, -⟩ | ⟨rfl, -⟩ <;> simpa using hpoint

theorem integer?_integerText (v : Int) : integer? (integerText v) = some v := by
  have hds : StandsFor (Nat.toDigits 10 v.natAbs) v.natAbs :=
    standsFor_iff.2 ⟨isRun_toDigits _, ofDigits_toDigits _⟩
  rw [integer?_eq_some_iff, integerText]
  refine ⟨_, _, hds, ?_⟩
  split
  · exact .inr ⟨rfl, by omega⟩
  · exact .inl ⟨.inl rfl, by omega⟩

end Decimal

open Decimal

theorem uint32?_eq_some_iff_toNat {n : Nat} {m : UInt32} : uint32? n = some m ↔ m.toNat = n := by
  unfold uint32?
  split
  · next h =>
    rw [Option.some.injEq, ← UInt32.toNat_inj, UInt32.toNat_ofNat_of_lt' h, eq_comm]
  · next h =>
    have hlt := m.toNat_lt
    simp only [reduceCtorEq, false_iff]
    omega

theorem int64?_eq_some_iff_toInt {v : Int} {n : Int64} : int64? v = some n ↔ n.toInt = v := by
  unfold int64?
  split
  · next h =>
    rw [Option.some.injEq, ← Int64.toInt_inj, Int64.toInt_ofInt_of_le h.1 h.2, eq_comm]
  · next h =>
    have hle := n.le_toInt
    have hlt := n.toInt_lt
    simp only [reduceCtorEq, false_iff]
    omega

theorem maskOfLiteral?_eq_some_iff {m : UInt32} :
    maskOfLiteral? cs = some m ↔ unsigned? (trim cs) = some m.toNat := by
  simp [maskOfLiteral?, Option.bind_eq_some_iff, uint32?_eq_some_iff_toNat]

theorem mem_trim_iff {c : Char} (h : isSpace c = false) : c ∈ trim cs ↔ c ∈ cs := by
  have hdrop (cs : List Char) : c ∈ cs.dropWhile isSpace ↔ c ∈ cs := by
    refine ⟨fun hc ↦ (List.dropWhile_suffix isSpace).subset hc, fun hc ↦ ?_⟩
    rw [← List.takeWhile_append_dropWhile (p := isSpace) (l := cs), List.mem_append] at hc
    refine hc.resolve_left fun ht ↦ ?_
    rw [List.mem_takeWhile_imp ht] at h
    cases h
  rw [trim, trimEnd, List.mem_reverse, hdrop, List.mem_reverse, trimStart, hdrop]

namespace Number

theorem ofLiteral?_eq_int_iff {n : Int64} :
    ofLiteral? cs = some (.int n) ↔ integer? (trim cs) = some n.toInt := by
  by_cases hpoint : '.' ∈ trim cs
  · have hfloat : ofLiteral? cs ≠ some (.int n) := by
      simp [ofLiteral?, hpoint, Option.bind_eq_some_iff]
    exact iff_of_false hfloat fun h ↦ point_not_mem_of_integer? h hpoint
  · simp [ofLiteral?, hpoint, Option.bind_eq_some_iff, int64?_eq_some_iff_toInt]

theorem ofLiteral?_eq_float_iff {x : Binary64} :
    ofLiteral? cs = some (.float x) ↔
      '.' ∈ cs ∧ float? (trim cs) = some x ∧ x.isFinite = true := by
  rw [← mem_trim_iff (show isSpace '.' = false by decide)]
  by_cases hpoint : '.' ∈ trim cs
  · simp [ofLiteral?, hpoint, Option.bind_eq_some_iff]
  · simp [ofLiteral?, hpoint, Option.bind_eq_some_iff]

end Number

theorem trim_integerText (v : Int) : trim (integerText v) = integerText v := by
  have hrun := isRun_toDigits v.natAbs
  refine trim_of_isRun (p := fun c ↦ c.isDigit || c = '-') ⟨?_, ?_⟩ ?_
  · simp [integerText, hrun.1]
  · intro c hc
    rcases List.mem_append.1 hc with hc | hc
    · split at hc <;> simp_all
    · simp [hrun.2 c hc]
  · intro c hc
    rcases Bool.or_eq_true_iff.1 hc with hc | hc
    · exact isSpace_of_isDigit c hc
    · rw [of_decide_eq_true hc]
      decide

/-- A mask is read as its value and an integer as its value with the sign, exactly up to the limits
of 32 and 64 bits. A double comes from a text with a point only and is finite. Hence the text of an
integer is read back. -/
theorem literals_read_exactly :
    (∀ text v, (maskOfLiteral? text).map UInt32.toNat = some v ↔
      v ≤ 2 ^ 32 - 1 ∧ ∃ ds, (trim text = ds ∨ trim text = '+' :: ds) ∧ StandsFor ds v) ∧
    (∀ text v, (∃ n, Number.ofLiteral? text = some (.int n) ∧ n.toInt = v) ↔
      (-2 ^ 63 ≤ v ∧ v ≤ 2 ^ 63 - 1) ∧ ∃ ds n, StandsFor ds n ∧
        ((trim text = ds ∨ trim text = '+' :: ds) ∧ v = n ∨ trim text = '-' :: ds ∧ v = -n)) ∧
    (∀ text x, Number.ofLiteral? text = some (.float x) ↔
      '.' ∈ text ∧ float? (trim text) = some x ∧ x.isFinite = true) ∧
    ∀ n : Int64, Number.ofLiteral? (Number.int n).display = some (.int n) := by
  refine ⟨fun text v ↦ ?_, fun text v ↦ ?_, fun _ _ ↦ Number.ofLiteral?_eq_float_iff, fun n ↦ ?_⟩
  · rw [← unsigned?_eq_some_iff, Option.map_eq_some_iff]
    constructor
    · rintro ⟨m, hm, rfl⟩
      have hlt := m.toNat_lt
      exact ⟨by omega, maskOfLiteral?_eq_some_iff.1 hm⟩
    · rintro ⟨hle, hv⟩
      have hm : (UInt32.ofNat v).toNat = v :=
        UInt32.toNat_ofNat_of_lt' (Nat.lt_of_le_of_lt hle (by decide))
      exact ⟨.ofNat v, maskOfLiteral?_eq_some_iff.2 (hm.symm ▸ hv), hm⟩
  · rw [← integer?_eq_some_iff]
    constructor
    · rintro ⟨n, hn, rfl⟩
      have hlt := n.toInt_lt
      exact ⟨⟨n.le_toInt, by omega⟩, Number.ofLiteral?_eq_int_iff.1 hn⟩
    · rintro ⟨⟨hmin, hmax⟩, hv⟩
      have hn : (Int64.ofInt v).toInt = v := Int64.toInt_ofInt_of_le hmin (by omega)
      exact ⟨.ofInt v, Number.ofLiteral?_eq_int_iff.2 (hn.symm ▸ hv), hn⟩
  · rw [Number.ofLiteral?_eq_int_iff, Number.display, trim_integerText, integer?_integerText]

end Achievements
