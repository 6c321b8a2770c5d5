import Intake.Report.Resolution

namespace Intake

def Path.toJson (p : Path) : Json := .array (p.texts.map .string)

def RuleReference.toJson (r : RuleReference) : Json :=
  .object <| ("identifier", .string r.identifier) ::
    (r.parameters.map fun parameters => ("parameters", .array parameters)).toList

def Finding.toJson (f : Finding) : Json :=
  .object <| ("path", f.path.toJson) :: ("identifier", .string f.identifier) ::
    ("message", .string f.message) ::
    (f.rule.map fun rule => ("validationRule", rule.toJson)).toList

def findingsJson (fs : List Finding) : Json := .array (fs.map Finding.toJson)

def Report.toJson (r : Report) : Json :=
  .object [("valid", .bool r.isValid), ("value", r.value.getD .null),
    ("errors", findingsJson r.errors), ("successes", findingsJson r.successes)]

def FieldError.toJson (e : FieldError) : Json :=
  .object [("type", .string e.type), ("message", .string e.message)]

def Resolution.toJson (r : Resolution) : Json :=
  .object [("values", r.values),
    ("errors", .object (r.errors.map fun (name, error) => (name, error.toJson)))]

end Intake
