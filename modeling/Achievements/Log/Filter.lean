import Achievements.Log
import Achievements.Settings.Environment
import Achievements.Text.Alphanumeric

/-!
Which events are shown. A filter is a text of directives with commas between them, each a level, a
target, or a target and a level: `warn,medal_migrate=info`. The most specific directive that
concerns an event decides.
-/
namespace Achievements

def Level.limit? (cs : List Char) : Option Nat :=
  match Decimal.unsigned? cs with
  | some n => if n ≤ Level.trace.rank then some n else none
  | none =>
    [("off", 0), ("error", Level.error.rank), ("warn", Level.warn.rank), ("info", Level.info.rank),
      ("debug", Level.debug.rank), ("trace", Level.trace.rank)].lookup
      (String.ofList (cs.map Char.toLower))

structure Directive where
  target : Option String := none
  /-- Whether it concerns only what happens inside some span. -/
  spanned : Bool := false
  fields : List String := []
  limit : Nat := Level.trace.rank

namespace Directive

inductive Place
  | start
  | word (first : Nat)
  | span (first : Nat)
  | field (first : Nat)
  | fields
  | target
  | level (first : Nat)
deriving DecidableEq

def places (i : Nat) : List Char → List (Nat × Char)
  | [] => []
  | c :: cs => (i, c) :: places (i + c.utf8Size) cs

def slice (text : List Char) (first last : Nat) : List Char :=
  ((places 0 text).filter fun (i, _) => first ≤ i && i < last).map Prod.snd

def canStart (c : Char) : Bool := c = '-' || c = ':' || c = '_' || Text.isAlphanumeric c

/-- Adds a field. One with a value is tested inside spans only. -/
def addField (d : Directive) (text : List Char) : Directive :=
  { d with
    fields := d.fields ++ [.ofList (text.takeWhile (· ≠ '='))]
    spanned := d.spanned || text.contains '=' }

def step (text : List Char) (d : Directive) (p : Place) (i : Nat) (c : Char) :
    Option (Directive × Place) :=
  match p with
  | .start =>
    if c = '[' then some (d, .span (i + 1)) else if canStart c then some (d, .word i) else none
  | .word first =>
    let d' := { d with target := some (.ofList (slice text first i)) }
    if c = '=' then some (d', .level (i + 1))
    else if c = '[' then some (d', .span (i + 1))
    else some (d, p)
  | .span first =>
    if c = ']' then some ({ d with spanned := true }, .target)
    else if c = '\x7b' then
      some ({ d with spanned := d.spanned || slice text first i ≠ [] }, .field (i + 1))
    else some (d, p)
  | .field first =>
    if c ≠ '\x7d' then some (d, p)
    else if slice text first i = [] then none
    else some (d.addField (slice text first i), .fields)
  | .fields => if c = ']' then some (d, .target) else none
  | .target => if c = '=' then some (d, .level (i + 1)) else none
  | .level _ => some (d, p)

/-- A directive at its end. A single word is a level if it can be one, and no level means all. -/
def finish (text : List Char) (d : Directive) (p : Place) : Option Directive :=
  match p with
  | .word first =>
    let word := text.drop (slice text 0 first).length
    match Level.limit? word with
    | some n => some { d with limit := n }
    | none => some { d with target := some (.ofList word) }
  | .level first =>
    match text.drop (slice text 0 first).length with
    | [] => some d
    | level => (Level.limit? level).map fun n => { d with limit := n }
  | .target => some d
  | _ => none

/-- Reads one directive. Places are counted without the blanks around it, but what stands between
them is taken from the whole text. -/
def parse? (text : List Char) : Option Directive := do
  let (d, p) ← (places 0 (Text.trim text)).foldlM (fun (d, p) (i, c) => step text d p i c)
    (({}, .start) : Directive × Place)
  finish text d p

/-- How specific a directive is: by its target, then by its fields. -/
def weight (d : Directive) : Nat :=
  match d.target with
  | none => 0
  | some t => t.utf8ByteSize + 1

def precedes (d e : Directive) : Bool :=
  d.weight > e.weight || (d.weight = e.weight &&
    (d.fields.length > e.fields.length ||
      (d.fields.length = e.fields.length && decide (e.fields < d.fields))))

def concerns (d : Directive) (e : Event) : Bool :=
  !d.spanned && (d.target.all fun t => t.toList.isPrefixOf e.target.toList) &&
    d.fields.all (e.fields.contains ·)

end Directive

abbrev Filter : Type := List Directive

namespace Filter

def pieces : List Char → List (List Char)
  | [] => [[]]
  | c :: cs =>
    if c = ',' then [] :: pieces cs
    else
      match pieces cs with
      | [] => [[c]]
      | p :: ps => (c :: p) :: ps

def errorsOnly : Filter := [{ limit := Level.error.rank }]

def directives (text : String) : List (List Char) := (pieces text.toList).filter (· ≠ [])

/-- Reads a filter, of which every directive must be readable. One without directives shows
nothing. -/
def parse? (text : String) : Option Filter := (directives text).mapM Directive.parse?

/-- Reads a filter. Directives that cannot be read do not count; if none is left, errors are
shown. -/
def parse (text : String) : Filter :=
  match (directives text).filterMap Directive.parse? with
  | [] => errorsOnly
  | ds => ds

def better (best : Option Directive) (d : Directive) : Option Directive :=
  match best with
  | some b => if b.precedes d then some b else some d
  | none => some d

/-- The directive that decides on an event: the first in order of precedence, and the last of those
that differ in their level only. -/
def decisive? (f : Filter) (e : Event) : Option Directive :=
  (f.filter (·.concerns e)).foldl better none

def shows (f : Filter) (e : Event) : Bool :=
  (f.decisive? e).any fun d => e.level.rank ≤ d.limit

def parts : List String := ["medal_migrate", "medal_repository", "medal_parser", "medal_core"]

/-- The filter of a configured level. The level may bring further directives. -/
def ofLevel (level : String) : Filter :=
  parse (",".intercalate (parts.map fun part => part ++ "=" ++ level))

/-- The filter in force. A readable one in the environment goes before the configured level. -/
def inForce (env : Environment) (level : String) : Filter :=
  ((env.lookup "RUST_LOG").bind parse?).getD (ofLevel level)

def lines (f : Filter) (events : List Event) : List String :=
  (events.filter f.shows).map Event.line

end Filter

end Achievements
