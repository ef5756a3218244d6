import Mathlib.Data.List.Forall2
import Achievements.Proofs.Document.Decoding
import Achievements.Proofs.Json.Keys

namespace Achievements

open Json (Mismatch)

theorem except_bind_eq_ok_iff {ε α β : Type} {x : Except ε α} {f : α → Except ε β} {b : β} :
    (x >>= f) = .ok b ↔ ∃ a, x = .ok a ∧ f a = .ok b := by
  cases x <;> simp [bind, Except.bind]

namespace Number

/-- An integer stands for itself if it fits in 64 bits with a sign, every other number for a
double. -/
inductive Describes : Json → Number → Prop
  | int {n : Json.Integer} {i : Int64} (exact : i.toInt = n.val) : Describes (.int n) (.int i)
  | wide {n : Json.Integer} (wide : 0x8000000000000000 ≤ n.val) :
      Describes (.int n) (.float (.ofInt n.val))
  | float (x : Finite64) : Describes (.float x) (.float (.fin x))

theorem int64?_eq_some_of_toInt {n : Int} {i : Int64} (h : i.toInt = n) : int64? n = some i := by
  subst h
  rw [int64?, if_pos ⟨i.le_toInt, i.toInt_lt⟩, Int64.ofInt_toInt]

theorem int64?_eq_none {n : Int} (h : 0x8000000000000000 ≤ n) : int64? n = none := by
  rw [int64?, if_neg (by omega)]

theorem describes_of_int64? {n : Json.Integer} {i : Int64} (h : int64? n.val = some i) :
    Describes (.int n) (.int i) := by
  rw [int64?] at h
  split at h
  case isTrue hrange =>
    obtain rfl := Option.some.inj h
    exact .int (Int64.toInt_ofInt_of_le hrange.1 hrange.2)
  case isFalse => cases h

theorem ofJson_eq_ok_iff {v : Json} {n : Number} : ofJson v = .ok n ↔ Describes v n := by
  constructor
  · intro h
    cases v with
    | int m =>
      rw [ofJson] at h
      cases hi : int64? m.val with
      | some i =>
        rw [hi] at h
        cases h
        exact describes_of_int64? hi
      | none =>
        rw [hi] at h
        cases h
        refine .wide ?_
        have hlower := m.lower
        by_contra hlt
        rw [int64?, if_pos (by omega)] at hi
        cases hi
    | float x =>
      cases h
      exact .float x
    | _ => cases h
  · intro h
    cases h with
    | int exact => rw [ofJson, int64?_eq_some_of_toInt exact]
    | wide wide => rw [ofJson, int64?_eq_none wide]
    | float x => rfl

end Number

theorem Json.choose_eq_ok_iff {α : Type} {words : List (String × α)} {w : String} {x : α}
    (h : (words.map Prod.fst).Nodup) : Json.choose words w = .ok x ↔ (w, x) ∈ words := by
  rw [← lookup_eq_some_iff_mem h, Json.choose]
  cases words.lookup w <;> simp

namespace Comparison

/-- An operator is its word, or an object of the word alone with null or an empty object in it. -/
inductive Describes : Json → Comparison → Prop
  | word (op : Comparison) : Describes (.str op.token) op
  | null (op : Comparison) : Describes (.obj [(op.token, .null)]) op
  | empty (op : Comparison) : Describes (.obj [(op.token, .obj [])]) op

theorem choose_eq_ok_iff {w : String} {op : Comparison} :
    Json.choose words w = .ok op ↔ w = op.token := by
  rw [Json.choose_eq_ok_iff (by decide)]
  cases op <;> simp [words, token]

end Comparison

namespace Condition

theorem stringOf_eq_ok_iff {v : Json} {s : String} : stringOf v = .ok s ↔ v = .str s := by
  cases v <;> simp [stringOf]

theorem maskOf_eq_ok_iff {v : Json} {m : UInt32} :
    maskOf v = .ok m ↔ ∃ n : Json.Integer, v = .int n ∧ n.val = m.toNat := by
  constructor
  · intro h
    cases v with
    | int n =>
      rw [maskOf] at h
      split at h
      case isTrue hrange =>
        obtain rfl := Except.ok.inj h
        refine ⟨n, rfl, ?_⟩
        have hsize : n.val.toNat < UInt32.size := by
          rw [UInt32.size]
          omega
        rw [UInt32.toNat_ofNat_of_lt' hsize]
        omega
      case isFalse => cases h
    | _ => cases h
  · intro h
    obtain ⟨n, rfl, hn⟩ := h
    have hinteger : n = .ofUInt32 m := by
      cases n
      simp_all [Json.Integer.ofUInt32]
    rw [hinteger]
    exact maskOf_ofUInt32 m

theorem comparisonOf_eq_ok_iff {v : Json} {op : Comparison} :
    comparisonOf v = .ok op ↔ Comparison.Describes v op := by
  constructor
  · intro h
    unfold comparisonOf at h
    split at h
    · rw [Comparison.choose_eq_ok_iff] at h
      exact h ▸ .word op
    · simp only [except_bind_eq_ok_iff, Comparison.choose_eq_ok_iff] at h
      obtain ⟨o, rfl, h⟩ := h
      split at h
      · cases h
        exact .null op
      · cases h
        exact .empty op
      · cases h
    · cases h
    · cases h
  · intro h
    cases h <;> cases op <;> rfl

def Field.Content : Field → Type
  | stat => String
  | op => Comparison
  | value | min | max => Number
  | mask | equals => UInt32

/-- Numbers are read as they are, masks only if they are integers of 32 bits. -/
def Field.Describes : (f : Field) → Json → f.Content → Prop
  | stat, v, s => v = .str s
  | op, v, o => Comparison.Describes v o
  | value, v, n | min, v, n | max, v, n => Number.Describes v n
  | mask, v, m | equals, v, m => ∃ n : Json.Integer, v = .int n ∧ n.val = m.toNat

def kind : Condition → Kind
  | compare .. => .compare
  | bitEq .. => .bitEq
  | bitNe .. => .bitNe
  | range .. => .range

def contents : Condition → List ((f : Field) × f.Content)
  | compare s o v => [⟨.stat, s⟩, ⟨.op, o⟩, ⟨.value, v⟩]
  | bitEq s m e => [⟨.stat, s⟩, ⟨.mask, m⟩, ⟨.equals, e⟩]
  | bitNe s m => [⟨.stat, s⟩, ⟨.mask, m⟩]
  | range s lo hi => [⟨.stat, s⟩, ⟨.min, lo⟩, ⟨.max, hi⟩]

/-- An object may have other members too, an array has the fields and nothing else. -/
inductive Describes : Json → Condition → Prop
  | object {ms : List (String × Json)} {c : Condition} (type : ("type", .str c.tag) ∈ ms)
      (fields : ∀ e ∈ c.contents, ∃ v, (e.1.name, v) ∈ ms ∧ e.1.Describes v e.2) :
      Describes (.obj ms) c
  | array {vs : List Json} {c : Condition}
      (fields : List.Forall₂ (fun e v ↦ e.1.Describes v e.2) c.contents vs) :
      Describes (.arr (.str c.tag :: vs)) c

theorem map_contents (c : Condition) : c.contents.map (·.1) = c.kind.fields := by
  cases c <;> rfl

theorem kindOf_eq_ok_iff {v : Json} {c : Condition} : kindOf v = .ok c.kind ↔ v = .str c.tag := by
  have hwords {w : String} : Json.choose Kind.words w = .ok c.kind ↔ w = c.tag := by
    rw [Json.choose_eq_ok_iff (by decide)]
    cases c <;> simp [Kind.words, kind, tag]
  cases v <;> simp [kindOf, hwords]

end Condition

end Achievements
