import Achievements.Proofs.Clause.Remnants
import Achievements.Proofs.Expression.Completeness

namespace Achievements

open Text

def Text.Parens (cs : List Char) : Prop := ∀ c ∈ cs, c = '(' ∨ c = ')'

namespace Clause.Written

variable {w : Written} {p s : List Char} {c : Char}

def enclosed (w : Written) : List Char := ['('] ++ w.text ++ [')']

/-- What a clause in range is read as while remnants stand around it. -/
def exposed (w : Written) : Option (Form × Condition) :=
  if w.form = .flag then none else some (w.form, w.condition)

def kept (w : Written) : List Condition := if w.form = .flag then [] else [w.condition]

theorem parens_nil : Parens [] := by simp [Parens]

theorem parens_opening : Parens ['('] := by simp [Parens]

theorem parens_closing : Parens [')'] := by simp [Parens]

theorem inert_of_parens (h : Parens p) : Inert p := by
  intro c hc
  rcases h c hc with rfl | rfl <;> decide

theorem isSpace_of_parens (h : Parens p) (hc : c ∈ p) : isSpace c = false := by
  rcases h c hc with rfl | rfl <;> rfl

theorem isSpace_of_mem_head?_around (hp : Parens p) (h : c ∈ (p ++ w.text ++ s).head?) :
    isSpace c = false := by
  rw [List.append_assoc, List.head?_append, List.head?_append_of_ne_nil _ w.text_ne_nil,
    Option.mem_def, Option.or_eq_some_iff] at h
  rcases h with h | ⟨-, h⟩
  · exact isSpace_of_parens hp (List.mem_of_mem_head? h)
  · exact isSpace_of_isWord (isWord_of_mem_head? h)

theorem isSpace_of_mem_getLast?_around (hs : Parens s) (h : c ∈ (p ++ w.text ++ s).getLast?) :
    isSpace c = false := by
  rw [List.getLast?_append, List.getLast?_append_of_ne_nil _ w.text_ne_nil, Option.mem_def,
    Option.or_eq_some_iff] at h
  rcases h with h | ⟨-, h⟩
  · exact isSpace_of_parens hs (List.mem_of_getLast? h)
  · exact isSpace_of_isWord (isWord_of_mem_getLast? h)

theorem trim_around (hp : Parens p) (hs : Parens s) :
    trim (p ++ w.text ++ s) = p ++ w.text ++ s :=
  trim_eq_self (fun _ ↦ isSpace_of_mem_head?_around hp) fun _ ↦ isSpace_of_mem_getLast?_around hs

theorem clear_of_parens (h : Parens p) : Clear p := by
  apply clear_of_not_mem
  intro hm
  rcases h 'a' hm with h | h <;> cases h

theorem clear_around_text (hp : Parens p) (hs : Parens s) : Clear (p ++ w.text ++ s) := by
  refine ((clear_of_parens hp).append w.clear_text ?_).append (clear_of_parens hs) ?_
  · intro x hx y _ hblank
    rw [isBlank_of_not_isSpace (isSpace_of_parens hp (List.mem_of_getLast? hx))] at hblank
    cases hblank
  · rintro x - y hy - rfl
    rcases hs 'a' (List.mem_of_mem_head? hy) with h | h <;> cases h

theorem solid_around (hp : Parens p) (hs : Parens s) : Expression.Solid (p ++ w.text ++ s) := by
  apply (clear_around_text hp hs).solid
  · simp [w.text_ne_nil]
  · intro x hx
    exact isBlank_of_not_isSpace (isSpace_of_mem_head?_around hp hx)
  · intro x hx
    exact isBlank_of_not_isSpace (isSpace_of_mem_getLast?_around hs hx)

theorem firstReading_around_text (h : w.InRange) (hp : Parens p) (hs : Parens s)
    (hne : p ≠ [] ∨ s ≠ []) : firstReading rules (p ++ w.text ++ s) = w.exposed := by
  have halone : firstReading rules w.text = some (w.form, w.condition) := by
    rw [← classify_of_inRange h, classify, body_text]
  rw [firstReading_around (inert_of_parens hp) (inert_of_parens hs) hne, halone,
    Option.filter_some, exposed]
  by_cases hflag : w.form = .flag <;> simp [hflag]

theorem classify_closed (h : w.InRange) : classify (.ofList (w.text ++ [')'])) = w.exposed := by
  have htrim : trim (w.text ++ [')']) = w.text ++ [')'] := trim_around parens_nil parens_closing
  have hunwrap : unwrap (w.text ++ [')']) = w.text ++ [')'] := by
    apply unwrap_eq_self
    intro hparens
    rw [List.head?_append_of_ne_nil _ w.text_ne_nil] at hparens
    cases isWord_of_mem_head? hparens.1
  rw [classify, body, String.toList_ofList, htrim, hunwrap, ← List.nil_append w.text]
  exact firstReading_around_text h parens_nil parens_closing (.inr (by simp))

theorem classify_opened (h : w.InRange) : classify (.ofList ('(' :: w.text)) = w.exposed := by
  have happend : '(' :: w.text = ['('] ++ w.text ++ [] := by simp
  have htrim : trim ('(' :: w.text) = '(' :: w.text := by
    rw [happend, trim_around parens_opening parens_nil]
  have hunwrap : unwrap ('(' :: w.text) = '(' :: w.text := by
    apply unwrap_eq_self
    intro hparens
    rw [List.getLast?_cons_of_ne_nil w.text_ne_nil] at hparens
    cases isWord_of_mem_getLast? hparens.2
  rw [classify, body, String.toList_ofList, htrim, hunwrap, happend]
  exact firstReading_around_text h parens_opening parens_nil (.inl (by simp))

theorem classify_enclosed (h : w.InRange) :
    classify (.ofList w.enclosed) = some (w.form, w.condition) := by
  have hbody : body (.ofList w.enclosed) = w.text := by
    rw [body, String.toList_ofList, enclosed, trim_around parens_opening parens_closing]
    exact unwrap_parens w.text
  rw [← classify_of_inRange h, classify, classify, hbody, body_text]

end Clause.Written

namespace Expression

open Clause

section Joined

variable {c e y : List Char} {d : Delimiter} {r : List (Delimiter × List Char)}

theorem append_joined (x : List Char) : x ++ joined c r = joined (x ++ c) r := by
  cases r <;> simp [joined]

theorem joined_concat_append : joined c (r ++ [(d, e)]) ++ y = joined c (r ++ [(d, e ++ y)]) := by
  induction r generalizing c with
  | nil => simp [joined]
  | cons z r ih =>
    obtain ⟨d', c'⟩ := z
    simp only [List.cons_append, joined, List.append_assoc, ih]

theorem clauses_wrapped (hc : Solid c) (hr : ∀ x ∈ r, Solid x.2) :
    clauses (.ofList ('(' :: (joined c r ++ [')']))) = (c :: r.map Prod.snd).map .ofList := by
  have htrim : trim ('(' :: (joined c r ++ [')'])) = '(' :: (joined c r ++ [')']) := by
    apply trim_eq_self
    · intro x hx
      obtain rfl : '(' = x := by simpa using hx
      rfl
    · intro x hx
      obtain rfl : ')' = x := by simpa [List.getLast?_cons] using hx
      rfl
  rw [clauses, String.toList_ofList, htrim, unwrap_parens, splitFrom_joined hc hr]

end Joined

def parenthesised (first : Written) (middle : List (Delimiter × Written)) (d : Delimiter)
    (last : Written) : String :=
  .ofList (joined first.enclosed
    (middle.map (fun x ↦ (x.1, x.2.enclosed)) ++ [(d, last.enclosed)]))

variable (first : Written) (middle : List (Delimiter × Written)) (d : Delimiter) (last : Written)

theorem parenthesised_eq : parenthesised first middle d last =
    .ofList ('(' :: (joined (first.text ++ [')'])
      (middle.map (fun x ↦ (x.1, x.2.enclosed)) ++ [(d, '(' :: last.text)]) ++ [')'])) := by
  have hlast : last.enclosed = ('(' :: last.text) ++ [')'] := rfl
  have hfirst : first.enclosed = ['('] ++ (first.text ++ [')']) := by simp [Written.enclosed]
  rw [parenthesised, hlast, hfirst, ← joined_concat_append, ← append_joined]
  rfl

theorem clauses_parenthesised : clauses (parenthesised first middle d last) =
    .ofList (first.text ++ [')']) :: middle.map (fun x ↦ .ofList x.2.enclosed) ++
      [.ofList ('(' :: last.text)] := by
  rw [parenthesised_eq, clauses_wrapped]
  · simp [Function.comp_def]
  · exact first.solid_around Written.parens_nil Written.parens_closing
  · intro x hx
    rw [List.mem_append, List.mem_map, List.mem_singleton] at hx
    rcases hx with ⟨y, -, rfl⟩ | rfl
    · exact y.2.solid_around Written.parens_opening Written.parens_closing
    · have hsolid := last.solid_around Written.parens_opening Written.parens_nil
      rwa [List.append_nil] at hsolid

section Exposed

variable {w : Written} {c : List Char}

theorem accepted_exposed (h : classify (.ofList c) = w.exposed) :
    accepted [.ofList c] = w.kept := by
  rw [accepted, List.filterMap_cons, h, Written.exposed, Written.kept]
  by_cases hflag : w.form = .flag <;> simp [hflag]

theorem rejected_exposed (h : classify (.ofList c) = w.exposed) (hc : c ≠ []) (htrim : trim c = c) :
    rejected [.ofList c] = if w.form = .flag then [.ofList c] else [] := by
  rw [rejected_eq_filter (by simpa using ⟨hc, htrim⟩), List.filter_singleton, h, Written.exposed]
  by_cases hflag : w.form = .flag <;> simp [hflag]

end Exposed

/-- Where every clause is in parentheses, each is read as without them, but for a flag at either
end: it is lost, and reported with the parenthesis that is left to it. -/
theorem read_parenthesised (h : ∀ w ∈ first :: middle.map Prod.snd ++ [last], w.InRange) :
    (clauses (parenthesised first middle d last)).map classify =
        [first.exposed] ++ middle.map (fun x ↦ some (x.2.form, x.2.condition)) ++ [last.exposed] ∧
      read (parenthesised first middle d last) =
        ⟨⟨first.kept ++ middle.map (·.2.condition) ++ last.kept⟩,
          (if first.form = .flag then [.ofList (first.text ++ [')'])] else []) ++
            if last.form = .flag then [.ofList ('(' :: last.text)] else []⟩ ∧
      read (written first (middle ++ [(d, last)])) =
        ⟨⟨[first.condition] ++ middle.map (·.2.condition) ++ [last.condition]⟩, []⟩ := by
  have hfirst := Written.classify_closed (h first (by simp))
  have hlast := Written.classify_opened (h last (by simp))
  have hmiddle : ∀ x ∈ middle,
      classify (.ofList x.2.enclosed) = some (x.2.form, x.2.condition) := by
    intro x hx
    apply Written.classify_enclosed
    exact h x.2 (by simp [List.mem_map_of_mem hx])
  have hplain : ∀ w ∈ first :: (middle ++ [(d, last)]).map Prod.snd,
      classify (.ofList w.text) = some (w.form, w.condition) := by
    intro w hw
    apply Written.classify_of_inRange
    exact h w (by simpa using hw)
  have hclauses : clauses (parenthesised first middle d last) =
      [.ofList (first.text ++ [')'])] ++ middle.map (fun x ↦ .ofList x.2.enclosed) ++
        [.ofList ('(' :: last.text)] :=
    clauses_parenthesised first middle d last
  refine ⟨?_, ?_, ?_⟩
  · rw [hclauses, List.map_append, List.map_append, List.map_map, Function.comp_def,
      List.map_congr_left hmiddle, List.map_singleton, hfirst, List.map_singleton, hlast]
  · have hclosed : trim (first.text ++ [')']) = first.text ++ [')'] :=
      first.trim_around Written.parens_nil Written.parens_closing
    have hopened : trim ('(' :: last.text) = '(' :: last.text := by
      simpa using last.trim_around Written.parens_opening Written.parens_nil
    rw [read_eq, hclauses, accepted_append, accepted_append, rejected_append, rejected_append,
      accepted_exposed hfirst, accepted_exposed hlast, accepted_map hmiddle, rejected_map hmiddle,
      rejected_exposed hfirst (by simp) hclosed, rejected_exposed hlast (by simp) hopened,
      List.append_nil]
  · rw [read_eq, clauses_written, accepted_map hplain, rejected_map hplain]
    simp

theorem read_flags_in_parentheses :
    read "(score.perfect) and (score.fc) and (1<=score.sr<2) and (score.and)" =
        ⟨⟨[.compare "fc" .equal (.int 1), .range "sr" (.int 1) (.int 2)]⟩,
          ["score.perfect)", "(score.and"]⟩ := by
  let tight : Gap := ⟨[], [], by decide, by decide⟩
  let space : Delimiter := ⟨[' '], [' '], by decide, by decide⟩
  let perfect : Written := .flag ⟨['p', 'e', 'r', 'f', 'e', 'c', 't'], by decide⟩
  let fc : Written := .flag ⟨['f', 'c'], by decide⟩
  let sr : Written := .range (.whole ⟨['1'], by decide⟩) tight ⟨['s', 'r'], by decide⟩ tight
    (.whole ⟨['2'], by decide⟩)
  let last : Written := .flag ⟨['a', 'n', 'd'], by decide⟩
  obtain ⟨-, hread, -⟩ := read_parenthesised perfect [(space, fc), (space, sr)] space last
    (by decide)
  have htext : parenthesised perfect [(space, fc), (space, sr)] space last =
      "(score.perfect) and (score.fc) and (1<=score.sr<2) and (score.and)" := by
    decide +kernel
  rw [htext] at hread
  rw [hread]
  decide +kernel

end Expression

end Achievements
