import Achievements.Proofs.Json.Order
import Achievements.Proofs.Json.Record
import Achievements.Row
import Mathlib.Data.List.Forall2

namespace Achievements

open Json (Reader Style Yields Opens SkipsBlanks)

variable {γ : Type} {st : Style} {d : Nat}

theorem Row.yields_read (hst : st.Blank) {cond : Reader γ} (hskip : SkipsBlanks cond)
    {encode : γ → Json} {r : Row γ} {c : γ}
    (hcond : Yields cond (Json.write st (d + 1) (encode r.cond)) c) (title : String) :
    Opens (Json.write st d (r.toJson encode)) ∧
      Yields (shape title cond).read (Json.write st d (r.toJson encode)) { r with cond := c } := by
  have hsteps : Json.Steps (shape title cond).member {}
      (Json.writeMembers st (d + 1) [("id", .int (.ofInt32 r.id)), ("file", .str r.file),
        ("name", .str r.name), ("desc", .str r.desc), ("cond", encode r.cond)])
      ⟨some r.id, some r.file, some r.name, some r.desc, some c⟩ := by
    have hstring : SkipsBlanks Json.string := Json.skipsBlanks_scalarOf _ _
    have hint32 : SkipsBlanks Json.int32 := Json.skipsBlanks_scalarOf _ _
    simp only [Json.writeMembers, Json.writeMember, List.append_assoc]
    refine .cons (Json.Shape.yields_member hst rfl rfl hint32 (Json.yields_int32 r.id)) ?_
    refine .cons (Json.Shape.yields_member hst rfl rfl hstring (Json.yields_string r.file)) ?_
    refine .cons (Json.Shape.yields_member hst rfl rfl hstring (Json.yields_string r.name)) ?_
    refine .cons (Json.Shape.yields_member hst rfl rfl hstring (Json.yields_string r.desc)) ?_
    exact .cons (Json.Shape.yields_member hst rfl rfl hskip hcond) (.nil _)
  exact Json.Shape.yields_read hst hsteps rfl d

namespace MigratedRow

/-- What a text can hold without loss: documents with no doubles and no key twice in an object, that
leave two levels of brackets for the list and the row. -/
structure Storable (r : MigratedRow) : Prop where
  floatFree : r.cond.FloatFree
  distinctKeys : r.cond.DistinctKeys
  nesting_le : r.cond.nesting ≤ 125

structure Same (r r' : MigratedRow) : Prop where
  id : r.id = r'.id
  file : r.file = r'.file
  name : r.name = r'.name
  desc : r.desc = r'.desc
  cond : r.cond.Same r'.cond

def sorted (r : MigratedRow) : MigratedRow := { r with cond := r.cond.sorted }

variable {r : MigratedRow} {rows : List MigratedRow}

theorem Storable.same_sorted (h : r.Storable) : r.Same r.sorted :=
  ⟨rfl, rfl, rfl, rfl, Json.same_sorted r.cond h.distinctKeys⟩

theorem sorted_of_inOrder (h : r.cond.InOrder) : r.sorted = r := by
  rw [sorted, Json.sorted_of_inOrder r.cond h]

theorem yields_read (hst : st.Blank) (h : r.Storable) :
    Opens (Json.write st d r.toJson) ∧
      Yields (read (Json.maxDepth - 2)) (Json.write st d r.toJson) r.sorted := by
  have hvalue := (Json.stands_write hst r.cond _ (d + 1) h.nesting_le).2
  rw [Json.reread_of_floatFree _ h.floatFree] at hvalue
  exact Row.yields_read hst ((Json.skipsBlanks_value _).map _) (hvalue.map Json.sorted) _

theorem allYield_write (hst : st.Blank) (h : ∀ r ∈ rows, r.Storable) :
    Json.AllYield (read (Json.maxDepth - 2)) (Json.writeItems st d (rows.map toJson))
      (rows.map sorted) := by
  induction rows with
  | nil => exact .nil
  | cons r rows ih =>
    exact .cons (yields_read hst (h r (by simp))) (ih fun r hr ↦ h r (by simp [hr]))

theorem parseList_listText (h : ∀ r ∈ rows, r.Storable) :
    parseList (listText rows) = .ok (rows.map sorted) :=
  Json.readAll_of_yields (Json.yields_list Style.blank_pretty
    (allYield_write Style.blank_pretty h) 0)

theorem exists_parseList (h : ∀ r ∈ rows, r.Storable) :
    ∃ rows', parseList (listText rows) = .ok rows' ∧ List.Forall₂ Same rows rows' ∧
      ((∀ r ∈ rows, r.cond.InOrder) → rows' = rows) := by
  refine ⟨_, parseList_listText h, ?_, ?_⟩
  · rw [List.forall₂_map_right_iff, List.forall₂_same]
    intro r hr
    exact (h r hr).same_sorted
  · intro horder
    conv_rhs => rw [← List.map_id rows]
    exact List.map_congr_left fun r hr ↦ sorted_of_inOrder (horder r hr)

end MigratedRow

end Achievements
