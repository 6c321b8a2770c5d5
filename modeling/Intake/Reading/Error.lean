import Intake.Json.Basic
import Intake.Numeric.Layout
import Intake.Text.Quoted

namespace Intake

inductive Found where
  | null
  | bool (b : Bool)
  | whole (n : Whole)
  | double (x : Binary64)
  | string (s : String)
  | sequence
  | map

namespace Found

def ofJson : Json → Found
  | .null => .null
  | .bool b => .bool b
  | .number (.whole n) => .whole n
  | .number (.double x) => .double x
  | .string s => .string s
  | .array _ => .sequence
  | .object _ => .map

def text : Found → String
  | .null => "null"
  | .bool b => "boolean `" ++ (if b then "true" else "false") ++ "`"
  | .whole n => "integer `" ++ toString n.val ++ "`"
  | .double x => "floating point `" ++ x.text ++ "`"
  | .string s => "string " ++ quoted s
  | .sequence => "sequence"
  | .map => "map"

end Found

inductive ReadError where
  | wrongType (found : Found) (expected : String)
  | wrongValue (found : Found) (expected : String)
  | wrongLength (length : Nat) (expected : String)
  | missingField (name : String)
  | unknownVariant (name : String) (known : List String)
  | noVariant (type : String)

namespace ReadError

def expected (what : String) (v : Json) : ReadError := .wrongType (.ofJson v) what

def message : ReadError → String
  | wrongType found expected => "invalid type: " ++ found.text ++ ", expected " ++ expected
  | wrongValue found expected => "invalid value: " ++ found.text ++ ", expected " ++ expected
  | wrongLength length expected =>
    "invalid length " ++ toString length ++ ", expected " ++ expected
  | missingField name => "missing field `" ++ name ++ "`"
  | unknownVariant name known =>
    "unknown variant `" ++ name ++ "`, expected one of " ++
      ", ".intercalate (known.map fun k => "`" ++ k ++ "`")
  | noVariant type => "data did not match any variant of untagged enum " ++ type

end ReadError

end Intake
