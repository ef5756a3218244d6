import Achievements.Json.Printer

namespace Achievements.Json

inductive Found
  | null
  | bool (b : Bool)
  | int (n : Int)
  | float (x : Finite64)
  | str (s : String)
  | sequence
  | map

def found : Json → Found
  | null => .null
  | bool b => .bool b
  | int n => .int n.val
  | float x => .float x
  | str s => .str s
  | arr _ => .sequence
  | obj _ => .map

inductive Mismatch
  | type (found : Found) (expected : String)
  | value (found : Found) (expected : String)
  | length (n : Nat) (expected : String)
  | missing (field : String)
  | duplicate (field : String)
  | unknown (word : String) (expected : List String)
  | noNumber

inductive Fault
  | eof
  | malformed
  | mismatch (m : Mismatch)

def ticked (s : String) : String := "`" ++ s ++ "`"

def Found.text : Found → String
  | null => "null"
  | bool b => "boolean " ++ ticked (if b then "true" else "false")
  | int n => "integer " ++ ticked (.ofList (integerText n))
  | float x => "floating point " ++ ticked (.ofList (x.write numberLayout))
  | str s => "string " ++ Text.quoted s
  | sequence => "sequence"
  | map => "map"

def choices : List String → String
  | [a, b] => ticked a ++ " or " ++ ticked b
  | ws => "one of " ++ ", ".intercalate (ws.map ticked)

def Mismatch.message : Mismatch → String
  | type f e => "invalid type: " ++ f.text ++ ", expected " ++ e
  | value f e => "invalid value: " ++ f.text ++ ", expected " ++ e
  | length n e => "invalid length " ++ .ofList (Nat.toDigits 10 n) ++ ", expected " ++ e
  | missing f => "missing field " ++ ticked f
  | duplicate f => "duplicate field " ++ ticked f
  | unknown w ws => "unknown variant " ++ ticked w ++ ", expected " ++ choices ws
  | noNumber => "data did not match any variant of untagged enum Number"

def Fault.message : Fault → String
  | eof => "the text ends inside a value"
  | malformed => "the text is not JSON"
  | mismatch m => m.message

end Achievements.Json
