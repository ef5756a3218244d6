namespace Achievements.Text

def replacement : Char := '\uFFFD'

def continues (b : Nat) : Bool := 0x80 ≤ b && b ≤ 0xBF

def second (a b : Nat) : Bool :=
  if a = 0xE0 then 0xA0 ≤ b && b ≤ 0xBF
  else if a = 0xED then 0x80 ≤ b && b ≤ 0x9F
  else if a = 0xF0 then 0x90 ≤ b && b ≤ 0xBF
  else if a = 0xF4 then 0x80 ≤ b && b ≤ 0x8F
  else continues b

/-- The characters of a sequence of bytes. The longest start of a character that breaks off is
replaced as one. -/
def decode : List Nat → List Char
  | [] => []
  | a :: r =>
    if a < 0x80 then .ofNat a :: decode r
    else if 0xC2 ≤ a ∧ a ≤ 0xDF then
      match r with
      | b :: r' =>
        if continues b then .ofNat ((a - 0xC0) * 0x40 + (b - 0x80)) :: decode r'
        else replacement :: decode (b :: r')
      | [] => [replacement]
    else if 0xE0 ≤ a ∧ a ≤ 0xEF then
      match r with
      | b :: c :: r' =>
        if !second a b then replacement :: decode (b :: c :: r')
        else if continues c then
          .ofNat (((a - 0xE0) * 0x40 + (b - 0x80)) * 0x40 + (c - 0x80)) :: decode r'
        else replacement :: decode (c :: r')
      | [b] => if second a b then [replacement] else replacement :: decode [b]
      | [] => [replacement]
    else if 0xF0 ≤ a ∧ a ≤ 0xF4 then
      match r with
      | b :: c :: d :: r' =>
        if !second a b then replacement :: decode (b :: c :: d :: r')
        else if !continues c then replacement :: decode (c :: d :: r')
        else if continues d then
          .ofNat ((((a - 0xF0) * 0x40 + (b - 0x80)) * 0x40 + (c - 0x80)) * 0x40 + (d - 0x80)) ::
            decode r'
        else replacement :: decode (d :: r')
      | [b, c] =>
        if !second a b then replacement :: decode [b, c]
        else if continues c then [replacement]
        else replacement :: decode [c]
      | [b] => if second a b then [replacement] else replacement :: decode [b]
      | [] => [replacement]
    else replacement :: decode r

def skipMark : List UInt8 → List UInt8
  | 0xEF :: 0xBB :: 0xBF :: r => r
  | r => r

end Achievements.Text
