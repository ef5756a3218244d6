import Achievements.Text.Blank

namespace Achievements.Text

/-- Recognises something in front of a text: what it captures, and the rest. -/
abbrev Scanner (α : Type) : Type := List Char → Option (α × List Char)

def expect : List Char → List Char → Option (List Char)
  | [], cs => some cs
  | _ :: _, [] => none
  | p :: ps, c :: cs => if p = c then expect ps cs else none

def run (p : Char → Bool) : Scanner (List Char) := fun cs =>
  match cs.takeWhile p with
  | [] => none
  | w => some (w, cs.dropWhile p)

def word : Scanner (List Char) := run isWord

def digits : Scanner (List Char) := run Char.isDigit

/-- Digits, and a point with digits behind it if both follow. -/
def numeral : Scanner (List Char) := fun cs => do
  let (whole, rest) ← digits cs
  match rest with
  | '.' :: tail =>
    match digits tail with
    | some (frac, rest') => some (whole ++ '.' :: frac, rest')
    | none => some (whole, rest)
  | _ => some (whole, rest)

def token (t : List Char) (cs : List Char) : Option (List Char) :=
  (expect t (skipBlanks cs)).map skipBlanks

def search {α : Type} (p : List Char → Option α) : List Char → Option α
  | [] => p []
  | c :: cs => (p (c :: cs)).or (search p cs)

def occurs (t : List Char) (cs : List Char) : Bool := (search (expect t) cs).isSome

theorem expect_eq_some_iff {t cs rest : List Char} :
    expect t cs = some rest ↔ cs = t ++ rest := by
  induction t generalizing cs with
  | nil => simp [expect]
  | cons p ps ih =>
    cases cs with
    | nil => simp [expect]
    | cons c cs =>
      by_cases h : p = c
      · subst h; simp [expect, ih]
      · simp [expect, h, Ne.symm h]

theorem run_eq_some_iff {p : Char → Bool} {cs w rest : List Char} :
    run p cs = some (w, rest) ↔ w ≠ [] ∧ w = cs.takeWhile p ∧ rest = cs.dropWhile p := by
  unfold run
  split <;> grind

end Achievements.Text
