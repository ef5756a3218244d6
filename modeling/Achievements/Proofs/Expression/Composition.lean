import Achievements.Proofs.Clause.Written

namespace Achievements.Expression

open Text Clause

variable {first : String} {rest : List (Delimiter × String)}

def accepted (cs : List String) : List Condition :=
  cs.filterMap fun c ↦ (classify c).map Prod.snd

/-- The clauses that no rule reads, trimmed, but for blank ones. -/
def rejected (cs : List String) : List String :=
  (cs.filter fun c ↦ (classify c).isNone && trim c.toList ≠ []).map fun c ↦ .ofList (trim c.toList)

theorem condition?_judge (c : String) : (judge c).condition? = (classify c).map Prod.snd := by
  unfold judge
  split
  case h_1 h => rw [h]; rfl
  case h_2 h =>
    rw [h]
    split <;> rfl

theorem unknown?_judge (c : String) :
    (judge c).unknown? =
      if (classify c).isNone && trim c.toList ≠ [] then some (.ofList (trim c.toList))
      else none := by
  unfold judge
  split
  case h_1 h => simp [h, Verdict.unknown?]
  case h_2 h =>
    split
    case h_1 ht => simp [ht, Verdict.unknown?]
    case h_2 ht =>
      have hne : trim c.toList ≠ [] := ht
      simp [h, hne, Verdict.unknown?]

theorem filterMap_condition?_judge (cs : List String) :
    (cs.map judge).filterMap Verdict.condition? = accepted cs := by
  rw [List.filterMap_map, accepted]
  exact List.filterMap_congr fun c _ ↦ condition?_judge c

theorem filterMap_unknown?_judge (cs : List String) :
    (cs.map judge).filterMap Verdict.unknown? = rejected cs := by
  induction cs with
  | nil => rfl
  | cons c cs ih =>
    simp only [rejected, List.map_cons, List.filterMap_cons, List.filter_cons,
      unknown?_judge c] at ih ⊢
    rw [ih]
    cases (classify c).isNone && trim c.toList ≠ [] <;> rfl

theorem rejected_eq_filter {cs : List String}
    (h : ∀ c ∈ cs, c.toList ≠ [] ∧ trim c.toList = c.toList) :
    rejected cs = cs.filter fun c ↦ (classify c).isNone := by
  have hfilter : (cs.filter fun c ↦ (classify c).isNone && trim c.toList ≠ []) =
      cs.filter fun c ↦ (classify c).isNone := by
    refine List.filter_congr fun c hc ↦ ?_
    simp [(h c hc).2, (h c hc).1]
  rw [rejected, hfilter]
  conv_rhs => rw [← List.map_id (cs.filter _)]
  refine List.map_congr_left fun c hc ↦ ?_
  rw [(h c (List.mem_of_mem_filter hc)).2, String.ofList_toList, id]

theorem accepted_append (cs cs' : List String) :
    accepted (cs ++ cs') = accepted cs ++ accepted cs' := by
  simp [accepted]

theorem rejected_append (cs cs' : List String) :
    rejected (cs ++ cs') = rejected cs ++ rejected cs' := by
  simp [rejected]

section Recognised

variable {ι : Type} {xs : List ι} {clause : ι → String} {reading : ι → Form × Condition}

theorem accepted_map (h : ∀ x ∈ xs, classify (clause x) = some (reading x)) :
    accepted (xs.map clause) = xs.map fun x ↦ (reading x).2 := by
  rw [accepted, List.filterMap_map, ← List.filterMap_eq_map]
  refine List.filterMap_congr fun x hx ↦ ?_
  simp [h x hx]

theorem rejected_map (h : ∀ x ∈ xs, classify (clause x) = some (reading x)) :
    rejected (xs.map clause) = [] := by
  rw [rejected, List.map_eq_nil_iff, List.filter_eq_nil_iff]
  intro c hc
  obtain ⟨x, hx, rfl⟩ := List.mem_map.1 hc
  simp [h x hx]

end Recognised

theorem read_eq (expression : String) :
    read expression = ⟨⟨accepted (clauses expression)⟩, rejected (clauses expression)⟩ := by
  rw [read, ← filterMap_condition?_judge, ← filterMap_unknown?_judge]

theorem mem_conditions_read {expression : String} {c : Condition} :
    c ∈ (read expression).conjunction.conditions ↔
      ∃ clause ∈ clauses expression, ∃ f, classify clause = some (f, c) := by
  rw [read_eq]
  simp [accepted]

def composed (first : String) (rest : List (Delimiter × String)) : String :=
  .ofList (joined first.toList (rest.map fun x ↦ (x.1, x.2.toList)))

def lastClause (first : String) (rest : List (Delimiter × String)) : String :=
  (first :: rest.map Prod.snd).getLast (List.cons_ne_nil _ _)

theorem lastClause_mem : lastClause first rest ∈ first :: rest.map Prod.snd := List.getLast_mem _

theorem head?_composed (rest : List (Delimiter × String)) (hne : first.toList ≠ []) :
    (composed first rest).toList.head? = first.toList.head? := by
  rw [composed, String.toList_ofList, head?_joined hne]

theorem getLast?_composed (hne : ∀ c ∈ first :: rest.map Prod.snd, c.toList ≠ []) :
    (composed first rest).toList.getLast? = (lastClause first rest).toList.getLast? := by
  have hrest : ∀ x ∈ rest.map fun x ↦ (x.1, x.2.toList), x.2 ≠ [] := by
    intro x hx
    obtain ⟨y, hy, rfl⟩ := List.mem_map.1 hx
    exact hne y.2 (List.mem_cons_of_mem _ (List.mem_map_of_mem hy))
  have hmap : first.toList :: (rest.map fun x ↦ (x.1, x.2.toList)).map Prod.snd =
      (first :: rest.map Prod.snd).map String.toList := by
    simp
  rw [composed, String.toList_ofList, getLast?_joined (hne first (by simp)) hrest]
  simp only [hmap, List.getLast_map, lastClause]

theorem clauses_composed (hsolid : ∀ c ∈ first :: rest.map Prod.snd, Solid c.toList)
    (hstart : ∀ x ∈ first.toList.head?, isSpace x = false)
    (hend : ∀ x ∈ (lastClause first rest).toList.getLast?, isSpace x = false)
    (hparens : ¬ (first.toList.head? = some '(' ∧
      (lastClause first rest).toList.getLast? = some ')')) :
    clauses (composed first rest) = first :: rest.map Prod.snd := by
  have hne : ∀ c ∈ first :: rest.map Prod.snd, c.toList ≠ [] := fun c hc ↦ (hsolid c hc).ne_nil
  have hhead := head?_composed rest (hne first (by simp))
  have hlast := getLast?_composed hne
  rw [← hhead] at hstart hparens
  rw [← hlast] at hend hparens
  rw [composed, String.toList_ofList] at hstart hend hparens
  rw [composed, clauses_joined (hsolid first (by simp)) ?_ hstart hend hparens]
  · simp
  · intro x hx
    obtain ⟨y, hy, rfl⟩ := List.mem_map.1 hx
    exact hsolid y.2 (List.mem_cons_of_mem _ (List.mem_map_of_mem hy))

/-- Clauses that hold and touch no delimiter of their own are read one by one: the joined text has
these clauses and no others, the conditions of those that are recognised, and the others reported.
No clause is asked to be in a known form. -/
theorem read_composed (first : String) (rest : List (Delimiter × String))
    (hsolid : ∀ c ∈ first :: rest.map Prod.snd, Solid c.toList)
    (hstart : ∀ x ∈ first.toList.head?, isSpace x = false)
    (hend : ∀ x ∈ (lastClause first rest).toList.getLast?, isSpace x = false)
    (hparens : ¬ (first.toList.head? = some '(' ∧
      (lastClause first rest).toList.getLast? = some ')')) :
    clauses (composed first rest) = first :: rest.map Prod.snd ∧
      read (composed first rest) =
        ⟨⟨accepted (first :: rest.map Prod.snd)⟩, rejected (first :: rest.map Prod.snd)⟩ := by
  have hclauses := clauses_composed hsolid hstart hend hparens
  refine ⟨hclauses, ?_⟩
  rw [read_eq, hclauses]

theorem read_and_between_ands :
    clauses "(x == 1) and and and\t\u00a0huh and \u00a0 and score.perfect" =
        ["(x == 1)", "and", "\u00a0huh", "\u00a0", "score.perfect"] ∧
      read "(x == 1) and and and\t\u00a0huh and \u00a0 and score.perfect" =
        ⟨⟨[.compare "x" .equal (.int 1), .compare "perfect" .equal (.int 1)]⟩, ["and", "huh"]⟩ := by
  let space : Delimiter := ⟨[' '], [' '], by decide, by decide⟩
  let tab : Delimiter := ⟨[' '], ['\t'], by decide, by decide⟩
  let rest := [(space, "and"), (tab, "\u00a0huh"), (space, "\u00a0"), (space, "score.perfect")]
  have hclear : ∀ c ∈ "(x == 1)" :: rest.map Prod.snd, Written.Clear c.toList ∧ c.toList ≠ [] ∧
      Stops isBlank c.toList ∧ Stops isBlank c.toList.reverse := by
    decide +kernel
  have hsolid : ∀ c ∈ "(x == 1)" :: rest.map Prod.snd, Solid c.toList := by
    intro c hc
    obtain ⟨hc, hne, hstarts, hends⟩ := hclear c hc
    rw [Stops, List.head?_reverse] at hends
    exact hc.solid hne hstarts hends
  have hstart : Stops isSpace "(x == 1)".toList := by decide +kernel
  have hend : Stops isSpace (lastClause "(x == 1)" rest).toList.reverse := by decide +kernel
  rw [Stops, List.head?_reverse] at hend
  obtain ⟨hclauses, hread⟩ :=
    read_composed "(x == 1)" rest hsolid hstart hend (by decide +kernel)
  have htext : composed "(x == 1)" rest =
      "(x == 1) and and and\t\u00a0huh and \u00a0 and score.perfect" := by
    decide +kernel
  rw [htext] at hclauses hread
  refine ⟨hclauses, ?_⟩
  rw [hread]
  decide +kernel

end Achievements.Expression
