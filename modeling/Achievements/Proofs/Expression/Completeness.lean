import Achievements.Proofs.Clause.Recognition
import Achievements.Proofs.Expression.Composition

namespace Achievements.Expression

open Text Clause

def written (first : Written) (rest : List (Delimiter × Written)) : String :=
  .ofList (joined first.text (rest.map fun x ↦ (x.1, x.2.text)))

variable (first : Written) (rest : List (Delimiter × Written))

theorem written_eq_composed : written first rest =
    composed (.ofList first.text) (rest.map fun x ↦ (x.1, .ofList x.2.text)) := by
  simp [written, composed, Function.comp_def]

theorem clauses_written :
    clauses (written first rest) = (first :: rest.map Prod.snd).map fun w ↦ .ofList w.text := by
  have hws : .ofList first.text :: (rest.map fun x ↦ (x.1, String.ofList x.2.text)).map Prod.snd =
      (first :: rest.map Prod.snd).map fun w ↦ String.ofList w.text := by
    simp
  have hwritten : ∀ c ∈ .ofList first.text ::
      (rest.map fun x ↦ (x.1, String.ofList x.2.text)).map Prod.snd,
      ∃ w : Written, c.toList = w.text := by
    intro c hc
    rw [hws] at hc
    obtain ⟨w, -, rfl⟩ := List.mem_map.1 hc
    exact ⟨w, String.toList_ofList⟩
  rw [written_eq_composed, clauses_composed, hws]
  · intro c hc
    obtain ⟨w, hw⟩ := hwritten c hc
    rw [hw]
    exact w.solid_text
  · intro x hx
    rw [String.toList_ofList] at hx
    exact isSpace_of_isWord (Written.isWord_of_mem_head? hx)
  · intro x hx
    obtain ⟨w, hw⟩ := hwritten _ lastClause_mem
    rw [hw] at hx
    exact isSpace_of_isWord (Written.isWord_of_mem_getLast? hx)
  · intro h
    rw [String.toList_ofList] at h
    cases Written.isWord_of_mem_head? h.1

def recognised (ws : List Written) : List Condition :=
  ws.filterMap fun w ↦ (classify (.ofList w.text)).map Prod.snd

def unrecognised (ws : List Written) : List String :=
  (ws.map fun w ↦ .ofList w.text).filter fun clause ↦ (classify clause).isNone

theorem accepted_text (ws : List Written) :
    accepted (ws.map fun w ↦ .ofList w.text) = recognised ws := by
  rw [accepted, List.filterMap_map, recognised]
  rfl

theorem rejected_text (ws : List Written) :
    rejected (ws.map fun w ↦ .ofList w.text) = unrecognised ws := by
  refine rejected_eq_filter fun c hc ↦ ?_
  obtain ⟨w, -, rfl⟩ := List.mem_map.1 hc
  rw [String.toList_ofList]
  exact ⟨w.text_ne_nil, w.trim_text⟩

theorem read_written : read (written first rest) =
    ⟨⟨recognised (first :: rest.map Prod.snd)⟩, unrecognised (first :: rest.map Prod.snd)⟩ := by
  rw [read_eq, clauses_written, accepted_text, rejected_text]

/-- Clauses in range are all read, each as the condition it stands for, in order. -/
theorem read_written_of_inRange (h : ∀ w ∈ first :: rest.map Prod.snd, w.InRange) :
    read (written first rest) = ⟨⟨(first :: rest.map Prod.snd).map Written.condition⟩, []⟩ := by
  rw [read_written]
  generalize first :: rest.map Prod.snd = ws at h
  have hc : recognised ws = ws.map Written.condition := by
    rw [recognised, ← List.filterMap_eq_map]
    refine List.filterMap_congr fun w hw ↦ ?_
    rw [Written.classify_of_inRange (h w hw)]
    rfl
  have hd : unrecognised ws = [] := by
    rw [unrecognised, List.filter_eq_nil_iff]
    intro clause hclause
    obtain ⟨w, hw, rfl⟩ := List.mem_map.1 hclause
    rw [Written.classify_of_inRange (h w hw)]
    exact Bool.false_ne_true
  rw [hc, hd]

theorem read_stats_named_and :
    read "and == 007 and\tscore.and" =
      ⟨⟨[.compare "and" .equal (.int 7), .compare "and" .equal (.int 1)]⟩, []⟩ :=
  read_written_of_inRange
    (.equality false ⟨['a', 'n', 'd'], by decide⟩ ⟨[' '], [' '], by decide, by decide⟩
      (.whole ⟨['0', '0', '7'], by decide⟩))
    [(⟨[' '], ['\t'], by decide, by decide⟩, .flag ⟨['a', 'n', 'd'], by decide⟩)] (by decide)

theorem classify_eq_none_iff {w : Written} (h : ¬ w.InRange) :
    classify (.ofList w.text) = none ↔ ¬ w.FallsThrough := by
  refine ⟨fun hn hf ↦ ?_, Written.classify_eq_none h⟩
  rw [Written.classify_of_fallsThrough h hf, Option.map_eq_none_iff] at hn
  cases w with
  | bitEquality => cases hn
  | _ => exact hf

/-- A clause out of range is recognised by no rule, dropped wherever it stands and adds no
condition, unless it is a bit equality whose value fits in 64 bits: then its mask is read as the
stat of an equality. -/
theorem drops_outOfRange_iff (w : Written) (h : ¬ w.InRange) :
    (classify (.ofList w.text) = none ↔ ¬ w.FallsThrough) ∧
    (w.FallsThrough → classify (.ofList w.text) = w.remnant.map (.equality, ·)) ∧
    ∀ first rest before after, first :: rest.map Prod.snd = before ++ w :: after →
      ¬ w.FallsThrough → read (written first rest) =
        ⟨⟨recognised before ++ recognised after⟩,
          unrecognised before ++ .ofList w.text :: unrecognised after⟩ := by
  refine ⟨classify_eq_none_iff h, Written.classify_of_fallsThrough h, ?_⟩
  intro first rest before after hws hf
  have hn := (classify_eq_none_iff h).2 hf
  rw [read_written, hws]
  simp [recognised, unrecognised, hn]

theorem drops_wide_mask : classify "score.mods & 4294967296" = none ∧
    read "score.perfect and score.mods & 4294967296" =
      ⟨⟨[.compare "perfect" .equal (.int 1)]⟩, ["score.mods & 4294967296"]⟩ := by
  let perfect : Written := .flag ⟨['p', 'e', 'r', 'f', 'e', 'c', 't'], by decide⟩
  let wide : Written := .bitTest ⟨['m', 'o', 'd', 's'], by decide⟩
    ⟨[' '], [' '], by decide, by decide⟩
    ⟨['4', '2', '9', '4', '9', '6', '7', '2', '9', '6'], by decide⟩
  obtain ⟨hnone, -, hread⟩ := drops_outOfRange_iff wide (by decide)
  refine ⟨hnone.2 id, ?_⟩
  exact (hread perfect [(⟨[' '], [' '], by decide, by decide⟩, wide)] [perfect] [] rfl id).trans
    (by decide +kernel)

/-- The mask of `score.mods & 4294967296 == 0` has 33 bits; the clause is read as an equality of a
stat with that name. -/
theorem reads_wide_mask_as_stat : ∃ w : Written, ¬ w.InRange ∧
    String.ofList w.text = "score.mods & 4294967296 == 0" ∧
    classify "score.mods & 4294967296 == 0" =
      some (.equality, .compare "4294967296" .equal (.int 0)) := by
  refine ⟨.bitEquality ⟨['m', 'o', 'd', 's'], by decide⟩ ⟨[' '], [' '], by decide, by decide⟩
    ⟨['4', '2', '9', '4', '9', '6', '7', '2', '9', '6'], by decide⟩
    ⟨[' '], [' '], by decide, by decide⟩ ⟨['0'], by decide⟩, by decide, rfl, ?_⟩
  decide +kernel

end Achievements.Expression
