import Achievements.Proofs.Decimal.Plain
import Achievements.Proofs.Settings.Leaves

namespace Achievements

open Setting

namespace Environment

/-- Texts that come out as they were given: neither a truth value nor a number in any spelling, or
as one is printed. A zero with a sign is printed so only as a double, and its text reads as an
integer. -/
inductive Carried : String → Prop
  | text {v : String} : lower v ≠ "true" → lower v ≠ "false" →
      Decimal.float? v.toList = none → Carried v
  | truth (b : Bool) : Carried (if b then "true" else "false")
  | integer (n : Int64) : Carried (.ofList (integerText n.toInt))
  | decimal (x : Binary64) : x ≠ .fin Finite64.zero.negate →
      Carried (.ofList x.plain)

variable {v : String}

theorem guess_of_not_truth (htrue : lower v ≠ "true") (hfalse : lower v ≠ "false") :
    guess v = match (Decimal.integer? v.toList).bind int64? with
      | some n => .int n.toInt
      | none =>
        match Decimal.float? v.toList with
        | some x => .float x
        | none => .str v := by
  unfold guess
  split
  · next h => exact absurd h htrue
  · next h => exact absurd h hfalse
  · rfl

-- Numbers start with a digit or a sign, truth values with a letter.
theorem lower_ne_of_head {c : Char} (h : v.toList.head? = some c)
    (hc : c.isDigit = true ∨ c = '-') : lower v ≠ "true" ∧ lower v ≠ "false" := by
  have hlow : lowerChar c = c := by
    rcases hc with hc | rfl
    · rw [lowerChar, if_neg (ne_of_isDigit hc (by decide)), toLower_of_isDigit hc]
    · decide
  have hhead : (lower v).toList.head? = some c := by
    rw [lower, String.toList_ofList, List.head?_map, h, Option.map_some, hlow]
  constructor
  · intro ht
    rw [ht] at hhead
    cases hhead
    exact absurd hc (by decide)
  · intro hf
    rw [hf] at hhead
    cases hhead
    exact absurd hc (by decide)

theorem head?_integerText (n : Int) :
    ∃ c, (integerText n).head? = some c ∧ (c.isDigit = true ∨ c = '-') := by
  obtain ⟨c, cs, hcs, hc⟩ := head_digit_of_isRun (Decimal.isRun_toDigits n.natAbs)
  by_cases hn : n < 0
  · exact ⟨'-', by simp [integerText, hn], .inr rfl⟩
  · exact ⟨c, by simp [integerText, hn, hcs], .inl hc⟩

theorem head?_write (x : Finite64) :
    ∃ c, (x.write plainLayout).head? = some c ∧ (c.isDigit = true ∨ c = '-') := by
  obtain ⟨c, cs, hcs, hc⟩ := Decimal.exists_plain_eq_cons (Decimal.names_ofUnits .up x)
  rw [Finite64.write_plainLayout, hcs]
  cases x.neg with
  | true => exact ⟨'-', rfl, .inr rfl⟩
  | false => exact ⟨c, rfl, .inl hc⟩

theorem text?_guess_of_integer (n : Int64) :
    (guess (.ofList (integerText n.toInt))).text? = some (.ofList (integerText n.toInt)) := by
  obtain ⟨c, hhead, hc⟩ := head?_integerText n.toInt
  rw [← String.toList_ofList (l := integerText n.toInt)] at hhead
  obtain ⟨htrue, hfalse⟩ := lower_ne_of_head hhead hc
  rw [guess_of_not_truth htrue hfalse, String.toList_ofList, Decimal.integer?_integerText,
    Option.bind_some, int64?_eq_some_iff_toInt.2 rfl]
  rfl

theorem text?_guess_of_finite {x : Finite64} (hx : ¬ (x.neg = true ∧ x.units = 0)) :
    (guess (.ofList (x.write plainLayout))).text? = some (.ofList (x.write plainLayout)) := by
  obtain ⟨c, hhead, hc⟩ := head?_write x
  rw [← String.toList_ofList (l := x.write plainLayout)] at hhead
  obtain ⟨htrue, hfalse⟩ := lower_ne_of_head hhead hc
  rw [guess_of_not_truth htrue hfalse, String.toList_ofList]
  cases hint : (Decimal.integer? (x.write plainLayout)).bind int64? with
  | none =>
    rw [Finite64.float?_write]
    rfl
  | some n =>
    obtain ⟨k, hk, hkn⟩ := Option.bind_eq_some_iff.1 hint
    rw [← int64?_eq_some_iff_toInt.1 hkn] at hk
    simp only [text?, Finite64.integerText_of_integer? hx hk]

theorem carried_of_text?_guess (h : (guess v).text? = some v) : Carried v := by
  by_cases htrue : lower v = "true"
  · have hguess : guess v = .bool true := by simp [guess, htrue]
    rw [hguess] at h
    exact Option.some.inj h ▸ .truth true
  by_cases hfalse : lower v = "false"
  · have hguess : guess v = .bool false := by simp [guess, hfalse]
    rw [hguess] at h
    exact Option.some.inj h ▸ .truth false
  have hguess := guess_of_not_truth htrue hfalse
  cases hint : (Decimal.integer? v.toList).bind int64? with
  | some n =>
    rw [hguess, hint] at h
    exact Option.some.inj h ▸ .integer n
  | none =>
    cases hfloat : Decimal.float? v.toList with
    | none => exact .text htrue hfalse hfloat
    | some x =>
      rw [hguess, hint, hfloat] at h
      have hv : .ofList x.plain = v := Option.some.inj h
      rw [← hv]
      refine .decimal x ?_
      rintro rfl
      rw [← hv, String.toList_ofList] at hint
      exact absurd hint (by decide +kernel)

theorem text?_guess_eq_some_iff : (guess v).text? = some v ↔ Carried v := by
  refine ⟨carried_of_text?_guess, ?_⟩
  rintro (⟨htrue, hfalse, hnone⟩ | b | n | ⟨x, hx⟩)
  · have hint : Decimal.integer? v.toList = none := by
      refine Option.eq_none_iff_forall_ne_some.2 fun n hn ↦ ?_
      obtain ⟨x, hsome⟩ := Decimal.exists_float?_of_integer? hn
      rw [hnone] at hsome
      cases hsome
    rw [guess_of_not_truth htrue hfalse, hint, hnone]
    rfl
  · cases b <;> decide +kernel
  · exact text?_guess_of_integer n
  · cases x with
    | nan => decide +kernel
    | inf neg => cases neg <;> decide +kernel
    | fin x =>
      refine text?_guess_of_finite fun ⟨hneg, hunits⟩ ↦ hx ?_
      obtain ⟨neg, units, fits, bounded⟩ := x
      cases hneg
      cases hunits
      rfl

end Environment

namespace Settings

open Environment

namespace Leaf

def isText : Leaf → Bool
  | dryRun => false
  | source => false
  | _ => true

def text? (s : Settings) : Leaf → Option String
  | logLevel => some s.logLevel
  | inputPath => s.store.inputPath
  | outputPath => s.store.outputPath
  | databaseUrl => s.store.databaseUrl
  | _ => none

variable {f : Leaf} {v : String}

theorem exists_text?_guess (v : String) : ∃ text, (guess v).text? = some text := by
  obtain ⟨b, h⟩ | ⟨n, h⟩ | ⟨x, h⟩ | h := guess_cases v <;> rw [h] <;> exact ⟨_, rfl⟩

theorem optionalText?_guess (v : String) : (guess v).optionalText? = (guess v).text?.map some := by
  obtain ⟨b, h⟩ | ⟨n, h⟩ | ⟨x, h⟩ | h := guess_cases v <;> rw [h] <;> rfl

theorem text?_of_holds (hf : f.isText = true) {s : Settings} (h : f.Holds (guess v) s) :
    f.text? s = (guess v).text? := by
  have hpath {x : Option String} (hx : (guess v).optionalText? = some x) : x = (guess v).text? := by
    rw [optionalText?_guess] at hx
    obtain ⟨text, htext, rfl⟩ := Option.map_eq_some_iff.1 hx
    exact htext.symm
  cases f with
  | logLevel => exact h.symm
  | dryRun => cases hf
  | source => cases hf
  | inputPath => exact hpath h
  | outputPath => exact hpath h
  | databaseUrl => exact hpath h

theorem fits_guess (hf : f.isText = true) (v : String) : f.fits (guess v) = true := by
  obtain ⟨b, h⟩ | ⟨n, h⟩ | ⟨x, h⟩ | h := guess_cases v <;> rw [h] <;> cases f <;> first | rfl | cases hf

theorem misses_route_key {g : Leaf} (h : g ≠ f) : misses g.names (route f.key) = true := by
  rw [route_key]
  cases f <;> cases g <;> first | exact absurd rfl h | decide +kernel

theorem proper_guess (hf : f.isText = true) (v : String) (g : Leaf) :
    proper g.fits g.names (f.key, guess v) = true := by
  rw [proper, Bool.or_eq_true]
  by_cases h : g = f
  · subst h
    right
    rw [route_key, beyond?_map_name g.lower_of_mem_names]
    exact fits_guess hf v
  · exact .inl (misses_route_key h)

end Leaf

/-- Of the variables that concern a text the one that is gone through last decides it. What comes out
is the text of what the value reads as, which is the value itself exactly if it is carried, and
nothing that is given to a text keeps the settings from being loaded. -/
theorem texts_come_out {f : Leaf} (hf : f.isText = true) {L : Loader} {t : FileTree} {base : Path}
    {env extra before after : Environment} {outcome : Except LoadError Settings} {file : Members}
    {name v : String} (h : Loading L t base env outcome file extra)
    (hvars : L.arrange (env.extend extra).counting = before ++ (name, v) :: after)
    (hk : key? name = some f.key) (hafter : ∀ x ∈ after, ¬ touches f.names x.1) :
    ∃ text, (guess v).text? = some text ∧ (text = v ↔ Carried v) ∧
      (∀ s, outcome = .ok s → f.text? s = some text) ∧
      ((∀ g : Leaf, ∀ a ∈ file ++ (before ++ after).assignments,
        proper g.fits g.names a = true) → ∃ s, outcome = .ok s) := by
  obtain ⟨text, htext⟩ := Leaf.exists_text?_guess v
  refine ⟨text, htext, ?_, ?_, ?_⟩
  · rw [← text?_guess_eq_some_iff, htext, Option.some.injEq]
  · intro s hs
    rw [h.eq_build] at hs
    rw [Leaf.text?_of_holds hf (Loader.holds_of_build f hvars hk hafter hs), htext]
  · intro hothers
    have hcons : assignments ((name, v) :: after) = (f.key, guess v) :: assignments after := by
      simp [assignments, hk]
    have hproper (g : Leaf) : ∀ a ∈ layers file (L.arrange (env.extend extra).counting),
        proper g.fits g.names a = true := by
      intro a ha
      by_cases hown : a = (f.key, guess v)
      · rw [hown]
        exact Leaf.proper_guess hf v g
      · refine hothers g a ?_
        simpa [layers, hvars, assignments_append, hcons, hown] using ha
    obtain ⟨s, hs, -⟩ := exists_reflects hproper
    exact ⟨s, h.eq_build.trans (Loader.build_eq_ok hs)⟩

theorem exponent_comes_out_in_full :
    let env : Environment := [("MEDAL__REPOSITORY__DATABASE_URL", "1e3"), ("MEDAL__DRY_RUN", "1")]
    Loading .inOrder ⟨[]⟩ [] env (load ⟨[]⟩ [] env) [] [] ∧ (guess "1e3").text? = some "1000" ∧
      ¬ Carried "1e3" ∧ ∃ s, load ⟨[]⟩ [] env = .ok s ∧ Leaf.databaseUrl.text? s = some "1000" := by
  intro env
  have hextra : written ⟨[]⟩ [] env = [] := by decide +kernel
  have hloading : Loading .inOrder ⟨[]⟩ [] env (load ⟨[]⟩ [] env) [] [] := by
    rw [← hextra]
    refine .missing (.inr fun f ↦ ?_)
    cases f <;> decide +kernel
  have hvars : Loader.inOrder.arrange (env.extend []).counting =
      [] ++ ("MEDAL__REPOSITORY__DATABASE_URL", "1e3") :: [("MEDAL__DRY_RUN", "1")] := by
    decide +kernel
  have hshown : (guess "1e3").text? = some "1000" := by decide +kernel
  obtain ⟨text, htext, hiff, hall, hload⟩ := texts_come_out (f := .databaseUrl) rfl hloading hvars
    (by decide +kernel) (by decide +kernel)
  obtain ⟨s, hs⟩ := hload (by rintro (_ | _ | _ | _ | _ | _) <;> decide +kernel)
  cases hshown.symm.trans htext
  exact ⟨hloading, htext, fun h ↦ absurd (hiff.2 h) (by decide), s, hs, hall s hs⟩

theorem path_comes_out_without_leading_zeros :
    let s : Settings := { standard with store := .files "7" "out.json" }
    key? "MEDAL__REPOSITORY__INPUT_PATH" = some Leaf.inputPath.key ∧
      load ⟨[]⟩ [] [("MEDAL__REPOSITORY__INPUT_PATH", "007"),
        ("MEDAL__REPOSITORY__OUTPUT_PATH", "out.json")] = .ok s ∧
      Leaf.inputPath.text? s ≠ some "007" := by
  decide +kernel

end Settings

end Achievements
