namespace Achievements

abbrev Path : Type := List String

inductive Entry
  | dir
  | file (bytes : ByteArray)

/-- Entries by path. The newest entry of a path stands first and hides the older ones. -/
structure FileTree where
  entries : List (Path × Entry) := []

inductive FileError
  | notFound
  | notADirectory
  | isADirectory
  | alreadyExists
  | invalidData
  | invalidFilename
  | invalidInput
deriving DecidableEq

namespace Path

def pieces : List Char → List (List Char)
  | [] => [[]]
  | c :: cs =>
    if c = '/' then [] :: pieces cs
    else
      match pieces cs with
      | [] => [[c]]
      | p :: ps => (c :: p) :: ps

/-- Where a text leads from a directory, looking at the text alone. -/
def ofText (base : Path) (text : String) : Path :=
  let start := if text.toList.head? = some '/' then [] else base
  (pieces text.toList).foldl step start
where
  step (here : Path) (piece : List Char) : Path :=
    match piece with
    | [] => here
    | ['.'] => here
    | ['.', '.'] => here.dropLast
    | name => here ++ [.ofList name]

def text (p : Path) : String := "/" ++ "/".intercalate p

def isLongName (name : String) : Bool := 255 < name.utf8ByteSize

def fault? (text : String) : Option FileError :=
  if '\x00' ∈ text.toList then some .invalidInput
  else if 4096 ≤ text.utf8ByteSize then some .invalidFilename
  else none

end Path

namespace FileTree

def entry? (t : FileTree) (p : Path) : Option Entry :=
  if p = [] then some .dir else t.entries.lookup p

def put (t : FileTree) (p : Path) (e : Entry) : FileTree := ⟨(p, e) :: t.entries⟩

def erase (t : FileTree) (p : Path) : FileTree := ⟨t.entries.filter (·.1 ≠ p)⟩

/-- The entry at the end of a way on which everything else is a directory. -/
def walk (t : FileTree) (base : Path) : Path → Except FileError Entry
  | [] =>
    match t.entry? base with
    | some e => .ok e
    | none => .error .notFound
  | name :: names =>
    match t.entry? base with
    | some .dir =>
      if Path.isLongName name then .error .invalidFilename else walk t (base ++ [name]) names
    | some (.file _) => .error .notADirectory
    | none => .error .notFound

def locate (t : FileTree) (p : Path) : Except FileError Entry :=
  match Path.fault? p.text with
  | some e => .error e
  | none => t.walk [] p

/-- The place a text names, each piece looked up on the way: `..` leaves a directory that exists. -/
def resolve (t : FileTree) (base : Path) (text : String) : Except FileError Path :=
  match Path.fault? text, text.toList with
  | some e, _ => .error e
  | none, [] => .error .notFound
  | none, '/' :: cs => (Path.pieces cs).foldlM step []
  | none, cs => (Path.pieces cs).foldlM step base
where
  step (here : Path) (piece : List Char) : Except FileError Path :=
    match t.entry? here with
    | some .dir =>
      if Path.isLongName (.ofList piece) then .error .invalidFilename
      else .ok (Path.ofText.step here piece)
    | some (.file _) => .error .notADirectory
    | none => .error .notFound

def isFile (t : FileTree) (base : Path) (text : String) : Bool :=
  match t.resolve base text with
  | .ok p =>
    match t.entry? p with
    | some (.file _) => true
    | _ => false
  | .error _ => false

def readBytes (t : FileTree) (p : Path) : Except FileError ByteArray := do
  match ← t.locate p with
  | .dir => .error .isADirectory
  | .file bytes => return bytes

def readText (t : FileTree) (p : Path) : Except FileError String := do
  match String.fromUTF8? (← t.readBytes p) with
  | some s => return s
  | none => .error .invalidData

/-- Makes the directories that are missing along a way. Those made before a failure stay. -/
def makeWay (t : FileTree) (base : Path) : Path → FileTree × Except FileError Unit
  | [] => (t, .ok ())
  | name :: names =>
    if Path.isLongName name then (t, .error .invalidFilename)
    else
      match t.entry? (base ++ [name]) with
      | none => makeWay (t.put (base ++ [name]) .dir) (base ++ [name]) names
      | some .dir => makeWay t (base ++ [name]) names
      | some (.file _) => (t, .error (if names = [] then .alreadyExists else .notADirectory))

def makeDirs (t : FileTree) (p : Path) : FileTree × Except FileError Unit :=
  match Path.fault? p.text with
  | some e => (t, .error e)
  | none => t.makeWay [] p

def writeText (t : FileTree) (p : Path) (text : String) : Except FileError FileTree :=
  match t.locate p with
  | .ok .dir => .error .isADirectory
  | .ok (.file _) => .ok (t.put p (.file text.toUTF8))
  | .error .notFound => (t.locate p.dropLast).map fun _ => t.put p (.file text.toUTF8)
  | .error e => .error e

end FileTree

end Achievements
