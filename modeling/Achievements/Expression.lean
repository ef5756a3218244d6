import Achievements.Clause.Rule

namespace Achievements.Expression

open Text

def delimiter (cs : List Char) : Option (List Char) := do
  let (_, cs) ← run isBlank cs
  let cs ← expect ['a', 'n', 'd'] cs
  let (_, rest) ← run isBlank cs
  return rest

theorem length_lt_of_delimiter {cs rest : List Char} (h : delimiter cs = some rest) :
    rest.length < cs.length := by
  simp only [delimiter, Option.bind_eq_bind, Option.bind_eq_some_iff, Option.pure_def,
    Option.some.injEq, Prod.exists] at h
  obtain ⟨w, r, hw, s, hs, v, t, hv, rfl⟩ := h
  rw [run_eq_some_iff] at hw hv
  rw [expect_eq_some_iff] at hs
  have h₁ := (List.dropWhile_suffix (l := cs) isBlank).length_le
  have h₂ := (List.dropWhile_suffix (l := s) isBlank).length_le
  have h₃ := congrArg List.length hs
  simp only [List.length_append, List.length_cons, List.length_nil] at h₃
  rw [← hw.2.2] at h₁
  rw [← hv.2.2] at h₂
  omega

/-- The pieces between delimiters; `piece` holds the characters of the current one, last first. -/
def splitFrom (piece : List Char) (cs : List Char) : List (List Char) :=
  match _h : delimiter cs with
  | some rest => piece.reverse :: splitFrom [] rest
  | none =>
    match cs with
    | [] => [piece.reverse]
    | c :: cs => splitFrom (c :: piece) cs
termination_by cs.length
decreasing_by
  · exact length_lt_of_delimiter ‹_›
  · simp

/-- The clauses in order. One pair of parentheses around the whole is dropped. -/
def clauses (expression : String) : List String :=
  (splitFrom [] (unwrap (trim expression.toList))).map .ofList

structure Reading where
  conjunction : Conjunction
  dropped : List String
deriving DecidableEq

def Reading.lossless (r : Reading) : Bool := r.dropped.isEmpty

inductive Verdict
  | condition (c : Condition)
  | blank
  | unknown (clause : String)

def judge (clause : String) : Verdict :=
  match Clause.classify clause with
  | some (_, c) => .condition c
  | none =>
    match trim clause.toList with
    | [] => .blank
    | cs => .unknown (.ofList cs)

def Verdict.condition? : Verdict → Option Condition
  | condition c => some c
  | _ => none

def Verdict.unknown? : Verdict → Option String
  | unknown s => some s
  | _ => none

def read (expression : String) : Reading :=
  let verdicts := (clauses expression).map judge
  ⟨⟨verdicts.filterMap Verdict.condition?⟩, verdicts.filterMap Verdict.unknown?⟩

end Achievements.Expression
