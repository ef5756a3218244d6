namespace Achievements.Text

/-- Whether a character lies in one of the runs. The bounds increase: a run starts at every other one,
and ends before the next. -/
def inRuns (bounds : Array Nat) (c : Char) : Bool :=
  (bounds.filter (· ≤ c.toNat)).size % 2 = 1

end Achievements.Text
