import Intake.Metadata.Basic
import Intake.Schema.Build

/-! Schemas for remote input types; nothing in a description makes this fail. -/

namespace Intake

variable {m : Type → Type}

namespace RuleDescriptor

def bound? (r : RuleDescriptor) (i : Nat) : Option Nat :=
  match r.constraints.bind (·[i]?) with
  | some (.number (.whole n)) => n.toUInt64?.map UInt64.toNat
  | _ => none

def reference (r : RuleDescriptor) : RuleReference := ⟨r.type, r.constraints⟩

def checks (r : RuleDescriptor) : List (String × Check m) :=
  let limit (c : Constraint) : String × Check m := (c.name, .limit c)
  let minimum := (r.bound? 0).map fun n => limit (.minimumLength n)
  match r.type with
  | "maxLength" => ((r.bound? 0).map fun n => limit (.maximumLength n)).toList
  | "minLength" => minimum.toList
  | "isLength" => minimum.toList ++ ((r.bound? 1).map fun n => limit (.maximumLength n)).toList
  | "isEmail" => [("emailAddress", .emailAddress)]
  | "isNotEmpty" => [limit .notEmpty]
  | _ => []

def addTo (s : Schema m) (r : RuleDescriptor) : Schema m :=
  r.checks.foldl (fun s (identifier, check) => (s.register identifier check).rule r.reference) s

end RuleDescriptor

namespace FieldDescriptor

def valueKind (f : FieldDescriptor) : ScalarKind :=
  match f.kind, f.type.map FieldType.name with
  | .scalar, some "Int" => .number
  | .scalar, some "Float" => .number
  | .scalar, some "Boolean" => .boolean
  | _, _ => .string

def schema (f : FieldDescriptor) : Schema m :=
  let rules := if f.valueKind = .string then f.validation else []
  let ruled := rules.foldl RuleDescriptor.addTo (.scalar f.valueKind .empty)
  if f.required then ruled else ruled.optional

end FieldDescriptor

namespace InputType

def selected (t : InputType) (only : Option (List String)) : List FieldDescriptor :=
  match only with
  | none => t.fields
  | some names => t.fields.filter fun f => names.contains f.name

def compileSelected (t : InputType) (only : Option (List String)) : Schema m :=
  (t.selected only).foldl (fun s f => s.field f.name f.schema) .emptyObject

def compile (t : InputType) : Schema m := t.compileSelected none

end InputType

end Intake
