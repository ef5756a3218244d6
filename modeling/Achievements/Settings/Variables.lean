import Achievements.Settings.Environment
import Achievements.Text.Alphanumeric
import Achievements.Text.Utf8

/-!
Files of variables: one assignment a line. Quotes and backslashes may carry a value past the end of
a line, and `$name` stands for a variable that is set already. The first line that is neither an
assignment nor blank ends the reading; what stands before it counts.
-/
namespace Achievements.Variables

inductive Scan
  | closed
  | blank
  | escape
  | strong
  | strongEscape
  | weak
  | weakEscape
deriving DecidableEq

def Scan.opened (c : Char) : Scan :=
  if c = '\\' then .escape else if c = '"' then .weak else if c = '\'' then .strong else .closed

def Scan.next (s : Scan) (c : Char) : Scan :=
  match s with
  | closed => if Text.isSpace c ∧ c ≠ '\n' ∧ c ≠ '\r' then .blank else opened c
  | blank => opened c
  | escape => .closed
  | strong => if c = '\\' then .strongEscape else if c = '\'' then .closed else .strong
  | strongEscape => .strong
  | weak => if c = '\\' then .weakEscape else if c = '"' then .closed else .weak
  | weakEscape => .weak

/-- What is open behind a text, or else the text before the comment in it. -/
def scan (s : Scan) : List Char → Except (List Char) Scan
  | [] => .ok s
  | c :: cs =>
    if s = .blank ∧ c = '#' then .error []
    else (scan (s.next c) cs).mapError (c :: ·)

def chomp (cs : List Char) : List Char :=
  match cs.reverse with
  | '\n' :: '\r' :: r => r.reverse
  | '\n' :: r => r.reverse
  | _ => cs

/-- Joins lines until nothing is open. A file that ends inside one leaves it out, a line that is no
text ends the file. -/
def join (s : Scan) (before : List Char) : List (Option (List Char)) → List (List Char)
  | [] => []
  | none :: _ => []
  | some l :: ls =>
    let text := before ++ l
    if (Text.trimStart text).head? = some '#' then join .closed [] ls
    else
      match scan s l with
      | .error kept => (before ++ kept) :: join .closed [] ls
      | .ok .closed => chomp text :: join .closed [] ls
      | .ok s => join s text ls

def split : List UInt8 → List (List UInt8)
  | [] => []
  | b :: bs =>
    if b = 10 then [b] :: split bs
    else
      match split bs with
      | [] => [[b]]
      | l :: ls => (b :: l) :: ls

def lines (bytes : List UInt8) : List (List Char) :=
  join .closed [] ((split bytes).map fun l => (String.fromUTF8? ⟨l.toArray⟩).map String.toList)

inductive Mode
  /-- Outside or inside double quotes. -/
  | text (weak : Bool)
  | strong
  | escape (weak : Bool)
  /-- Behind a dollar sign; the name so far, last character first. -/
  | name (weak : Bool) (seen : List Char)
  | braced (weak : Bool) (seen : List Char)
  | ending

def unescape? (c : Char) : Option Char :=
  if c = 'n' then some '\n' else if c ∈ ['\\', '\'', '"', '$', ' '] then some c else none

def value (find : List Char → List Char) : Mode → List Char → Option (List Char)
  | .text true, [] | .escape true, [] | .name true _, [] | .strong, [] | .braced _ _, [] => none
  | .text false, [] | .escape false, [] | .ending, [] => some []
  | .name false seen, [] => some (find seen.reverse)
  | .text weak, c :: cs =>
    if c = '$' then value find (.name weak []) cs
    else if c = '\\' then value find (.escape weak) cs
    else if c = '"' then value find (.text !weak) cs
    else if c = '\'' ∧ !weak then value find .strong cs
    else if (c = ' ' ∨ c = '\t') ∧ !weak then value find .ending cs
    else (value find (.text weak) cs).map (c :: ·)
  | .strong, c :: cs =>
    if c = '\'' then value find (.text false) cs else (value find .strong cs).map (c :: ·)
  | .escape weak, c :: cs =>
    (unescape? c).bind fun d => (value find (.text weak) cs).map (d :: ·)
  | .name weak seen, c :: cs =>
    if Text.isAlphanumeric c then value find (.name weak (c :: seen)) cs
    else if c = '\x7b' ∧ seen = [] then value find (.braced weak []) cs
    else if c = '$' then (value find (.name weak []) cs).map (find seen.reverse ++ ·)
    else (value find (.text weak) cs).map (find seen.reverse ++ c :: ·)
  | .braced weak seen, c :: cs =>
    if c = '\x7d' then (value find (.text weak) cs).map (find seen.reverse ++ ·)
    else value find (.braced weak (c :: seen)) cs
  | .ending, c :: cs =>
    if c = ' ' ∨ c = '\t' then value find .ending cs else if c = '#' then some [] else none

def name? (cs : List Char) : Option (List Char × List Char) :=
  match cs with
  | c :: _ =>
    if c.isAlpha ∨ c = '_' then Text.run (fun c => Text.isWord c || c = '.') cs else none
  | [] => none

def target? (cs : List Char) : Option (List Char × List Char) := do
  let (name, rest) ← name? cs
  match Text.trimStart rest with
  | '=' :: rest => return (name, rest)
  | rest =>
    if name ≠ "export".toList then none
    else
      let (name, rest) ← name? rest
      match Text.trimStart rest with
      | '=' :: rest => return (name, rest)
      | _ => none

def isVoid (cs : List Char) : Bool := cs.head? = none || cs.head? = some '#'

def assignment? (find : List Char → List Char) (cs : List Char) : Option (List Char × List Char) := do
  let (name, rest) ← target? cs
  let rest := Text.trimStart rest
  if isVoid rest then return (name, []) else return (name, ← value find (.text false) rest)

def valueOf (env : Environment) (name : List Char) : List Char :=
  ((env.lookup (.ofList name)).getD "").toList

def addLines (env : Environment) : List (List Char) → Environment
  | [] => env
  | l :: ls =>
    let cs := Text.trim l
    if isVoid cs then addLines env ls
    else
      match assignment? (valueOf env) cs with
      | none => env
      | some (name, value) =>
        addLines (env.addMissing (.ofList name) (.ofList value)) ls

def addFile (env : Environment) (bytes : ByteArray) : Environment :=
  addLines env (lines (Text.skipMark bytes.data.toList))

end Achievements.Variables
