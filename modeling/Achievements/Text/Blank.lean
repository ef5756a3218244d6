namespace Achievements.Text

def isBlank (c : Char) : Bool :=
  c = '\t' || c = '\n' || c = '\x0c' || c = '\r' || c = ' '

def isWord (c : Char) : Bool := c.isAlphanum || c = '_'

/-- Unicode's White_Space property. -/
def isSpace (c : Char) : Bool :=
  let n := c.toNat
  (9 ≤ n && n ≤ 13) || n = 0x20 || n = 0x85 || n = 0xA0 || n = 0x1680 ||
    (0x2000 ≤ n && n ≤ 0x200A) || n = 0x2028 || n = 0x2029 || n = 0x202F || n = 0x205F ||
    n = 0x3000

def skipBlanks (cs : List Char) : List Char := cs.dropWhile isBlank

def trimStart (cs : List Char) : List Char := cs.dropWhile isSpace

def trimEnd (cs : List Char) : List Char := (cs.reverse.dropWhile isSpace).reverse

def trim (cs : List Char) : List Char := trimEnd (trimStart cs)

/-- Removes one opening parenthesis in front and one closing parenthesis at the end when both are
there, whether or not they belong together. -/
def unwrap : List Char → List Char
  | '(' :: cs => if cs.getLast? = some ')' then cs.dropLast else '(' :: cs
  | cs => cs

theorem isSpace_of_isBlank {c : Char} (h : isBlank c = true) : isSpace c = true := by
  simp only [isBlank, Bool.or_eq_true, decide_eq_true_eq] at h
  rcases h with (((rfl | rfl) | rfl) | rfl) | rfl <;> decide

end Achievements.Text
