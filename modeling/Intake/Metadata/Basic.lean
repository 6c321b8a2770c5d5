import Intake.Reading.Record

namespace Intake

structure RuleDescriptor where
  type : String
  constraints : Option (List Json)

inductive FieldKind where
  | scalar
  | enum
  | object
  | list
  | other
  deriving DecidableEq

namespace FieldKind

def name : FieldKind → String
  | scalar => "scalar"
  | enum => "enum"
  | object => "object"
  | list => "list"
  | other => "other"

def ofName (name : String) : FieldKind :=
  ([scalar, enum, object, list].find? (·.name = name)).getD other

end FieldKind

inductive FieldType where
  | named (name : String)
  | reference (name : String)
  deriving DecidableEq

def FieldType.name : FieldType → String
  | named name | reference name => name

structure FieldDescriptor where
  name : String
  kind : FieldKind
  required : Bool
  type : Option FieldType
  validation : List RuleDescriptor

structure InputType where
  fields : List FieldDescriptor

def readConstraints : Json → Except ReadError (Option (List Json))
  | .array constraints => .ok (some constraints)
  | _ => .ok none

namespace RuleDescriptor

def fields : FieldReader (String × Option (List Json)) :=
  (FieldReader.required "type").and (FieldReader.optional "constraints" readConstraints none)

instance : Readable RuleDescriptor where
  read v := (fun (type, constraints) => ⟨type, constraints⟩) <$> fields.read "RuleDescriptor" v

def ofJson? (v : Json) : Option RuleDescriptor :=
  (read v : Except ReadError RuleDescriptor).toOption

end RuleDescriptor

def readRules : Json → Except ReadError (List RuleDescriptor)
  | .array entries => .ok (entries.filterMap RuleDescriptor.ofJson?)
  | _ => .ok []

instance : Readable FieldKind := ⟨readVariant fun name => .ok (.ofName name)⟩

instance : Readable FieldType where
  read
    | .string name => .ok (.named name)
    | v => match v.get? "type" with
      | some (.string name) => .ok (.reference name)
      | _ => .error (.noVariant "FieldType")

namespace FieldDescriptor

def fields :
    FieldReader (String × FieldKind × Bool × Option FieldType × List RuleDescriptor) :=
  (FieldReader.required "name").and <|
    (FieldReader.required "kind").and <|
    (FieldReader.optional "required" read false).and <|
    (FieldReader.optional "type" read none).and <|
    FieldReader.optional "validation" readRules []

instance : Readable FieldDescriptor where
  read v := (fun (name, kind, required, type, validation) =>
    ⟨name, kind, required, type, validation⟩) <$> fields.read "FieldMetadata" v

end FieldDescriptor

namespace InputType

def fieldReader : FieldReader (List FieldDescriptor) := FieldReader.required "fields"

instance : Readable InputType where
  read v := InputType.mk <$> fieldReader.read "InputObjectTypeMetadata" v

def ofJson (v : Json) : Except ReadError InputType := read v

end InputType

end Intake
