import Achievements.Condition

namespace Achievements

/-- Named stats. The newest value of a name stands first and hides the older ones. -/
structure Score where
  stats : List (String × Binary64) := []

namespace Score

def get? (s : Score) (name : String) : Option Binary64 := s.stats.lookup name

def read (s : Score) (name : String) : Binary64 := (s.get? name).getD .zero

def set (s : Score) (name : String) (x : Binary64) : Score := ⟨(name, x) :: s.stats⟩

def ofList (stats : List (String × Binary64)) : Score :=
  stats.foldl (fun s (name, x) => s.set name x) ⟨[]⟩

def setCount (s : Score) (name : String) (n : UInt32) : Score :=
  s.set name (.ofNat n.toNat)

def withMods (s : Score) (mods : UInt32) : Score := s.setCount "mods" mods

def withStarRating (s : Score) (x : Binary64) : Score := s.set "sr" x

def withAccuracy (s : Score) (x : Binary64) : Score := s.set "accuracy" x

def withMode (s : Score) (mode : UInt8) : Score := s.set "mode_vn" (.ofNat mode.toNat)

/-- The combo is stored under two names. -/
def withMaxCombo (s : Score) (combo : UInt32) : Score :=
  (s.setCount "max_combo" combo).setCount "combo" combo

def withPerfect (s : Score) (perfect : Bool) : Score :=
  s.set "perfect" (.ofNat (if perfect then 1 else 0))

def withHits (s : Score) (n300 n100 n50 nmiss : UInt32) : Score :=
  (((s.setCount "300" n300).setCount "100" n100).setCount "50" n50).setCount "miss" nmiss

def withGekiKatu (s : Score) (ngeki nkatu : UInt32) : Score :=
  (s.setCount "geki" ngeki).setCount "katu" nkatu

@[simp]
theorem get?_set (s : Score) (name other : String) (x : Binary64) :
    (s.set name x).get? other = if other = name then some x else s.get? other := by
  by_cases h : other = name
  · simp [get?, set, h]
  · simp [get?, set, List.lookup_cons, beq_eq_false_iff_ne.2 h, h]

end Score

/-- Equality allows for a difference below `epsilon`. -/
def Comparison.holds : Comparison → Binary64 → Binary64 → Bool
  | equal, actual, expected => ((actual.sub expected).abs).lt .epsilon
  | atLeast, actual, expected => expected.le actual

def Condition.holds (s : Score) : Condition → Bool
  | compare stat op v => op.holds (s.read stat) v.value
  | range stat lo hi => lo.value.le (s.read stat) && (s.read stat).lt hi.value
  | bitEq stat mask equals => (s.read stat).toUInt32 &&& mask = equals
  | bitNe stat mask => (s.read stat).toUInt32 &&& mask ≠ 0

def Conjunction.holds (s : Score) (c : Conjunction) : Bool := c.conditions.all (·.holds s)

end Achievements
