import Intake.Json.Printer
import Intake.Schema.Basic
import Intake.Text.Quoted

namespace Intake

namespace Inspect

def braces (parts : List String) : String :=
  "\x7b " ++ ", ".intercalate parts ++ " \x7d"

def record (name : String) (fields : List (String × String)) : String :=
  name ++ " " ++ braces (fields.map fun (field, text) => field ++ ": " ++ text)

def list (parts : List String) : String := "[" ++ ", ".intercalate parts ++ "]"

def option {α : Type} (text : α → String) : Option α → String
  | none => "None"
  | some x => "Some(" ++ text x ++ ")"

def bool (b : Bool) : String := if b then "true" else "false"

end Inspect

open Inspect

namespace Json

mutual

def inspect : Json → String
  | .null => "Null"
  | .bool b => "Bool(" ++ Inspect.bool b ++ ")"
  | .number n => "Number(" ++ n.text ++ ")"
  | .string s => "String(" ++ quoted s ++ ")"
  | .array xs => "Array " ++ list (inspectItems xs)
  | .object xs => "Object " ++ "\x7b" ++ ", ".intercalate (inspectEntries xs) ++ "\x7d"

def inspectItems : List Json → List String
  | [] => []
  | x :: xs => inspect x :: inspectItems xs

def inspectEntries : List (String × Json) → List String
  | [] => []
  | (name, x) :: xs => (quoted name ++ ": " ++ inspect x) :: inspectEntries xs

end

end Json

def RuleReference.inspect (r : RuleReference) : String :=
  record "ValidationRule" [("identifier", quoted r.identifier),
    ("parameters", option (fun parameters => list (parameters.map Json.inspect)) r.parameters)]

variable {m : Type → Type}

def Registration.inspect (r : Registration m) : String :=
  "RegisteredValidator " ++ braces ["identifier: " ++ quoted r.identifier,
    "message: " ++ option quoted r.message, "rule: " ++ option RuleReference.inspect r.rule, ".."]

def Base.inspect (b : Base m) : String :=
  record "SchemaBase" [("optional", bool b.optional), ("nullable", bool b.nullable),
    ("default", option Json.inspect b.default),
    ("validators", list (b.registrations.map Registration.inspect))]

namespace Schema

def inspect : Schema m → String
  | scalar .string base => record "StringSchema" [("base", base.inspect)]
  | scalar .number base => record "NumberSchema" [("base", base.inspect)]
  | scalar .boolean base => record "BooleanSchema" [("base", base.inspect)]
  | s@(scalar .file base) => record "FileSchema" [("base", base.inspect),
      ("allowed_mime_types", option (fun names => list (names.map quoted)) s.allowedMimeTypes?),
      ("maximum_size", option toString s.maximumSize?),
      ("minimum_size", option toString s.minimumSize?)]
  | array base items => record "ArraySchema" [("base", base.inspect),
      ("item_schema", items.inspect)]
  | object base fields => record "ObjectSchema" [("base", base.inspect),
      ("fields", list (fields.map fun (name, _) => quoted name))]
  | custom leaf => record "CustomSchema" [("base", leaf.base.inspect)]

end Schema

end Intake
