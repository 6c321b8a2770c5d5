import Intake.Check

namespace Intake

inductive ScalarKind where
  | string
  | number
  | boolean
  | file
  deriving DecidableEq

inductive Kind where
  | scalar (kind : ScalarKind)
  | array
  | object
  deriving DecidableEq

namespace Kind

def name : Kind → String
  | scalar .string => "string"
  | scalar .number => "number"
  | scalar .boolean => "boolean"
  | scalar .file => "File"
  | array => "array"
  | object => "object"

def accepts : Kind → Json → Bool
  | scalar .string, .string _ => true
  | scalar .number, .number _ => true
  | scalar .boolean, .bool _ => true
  | scalar .file, v => (FileInfo.ofJson? v).isSome
  | array, .array _ => true
  | object, .object _ => true
  | _, _ => false

def default? : Kind → Option Json
  | scalar .string => some (.string "")
  | array => some (.array [])
  | _ => none

end Kind

structure Base (m : Type → Type) where
  optional : Bool
  nullable : Bool
  default : Option Json
  hints : FileHints
  registrations : List (Registration m)

def Base.empty {m : Type → Type} : Base m := ⟨false, false, none, .empty, []⟩

structure Leaf (m : Type → Type) where
  typeName : String
  base : Base m
  typeDefault : Option Json
  run : Option Json → Path → m Report

inductive Schema (m : Type → Type) where
  | scalar (kind : ScalarKind) (base : Base m)
  | array (base : Base m) (items : Schema m)
  | object (base : Base m) (fields : List (String × Schema m))
  | custom (leaf : Leaf m)

namespace Schema

variable {m : Type → Type}

def base : Schema m → Base m
  | scalar _ base | array base _ | object base _ => base
  | custom leaf => leaf.base

def typeName : Schema m → String
  | scalar kind _ => (Kind.scalar kind).name
  | array _ _ => Kind.array.name
  | object _ _ => Kind.object.name
  | custom leaf => leaf.typeName

def typeDefault : Schema m → Option Json
  | scalar kind _ => (Kind.scalar kind).default?
  | array _ _ => Kind.array.default?
  | object _ _ => Kind.object.default?
  | custom leaf => leaf.typeDefault

def default? (s : Schema m) : Option Json := s.base.default <|> s.typeDefault

def validators (s : Schema m) : List String := s.base.registrations.map (·.identifier)

def fields : Schema m → List (String × Schema m)
  | object _ fields => fields
  | _ => []

def field? (s : Schema m) (name : String) : Option (Schema m) := s.fields.lookup name

def defaults (s : Schema m) : List (String × Json) :=
  s.fields.filterMap fun (name, field) => field.default?.map (name, ·)

def allowedMimeTypes? (s : Schema m) : Option (List String) := s.base.hints.allowedMimeTypes

def maximumSize? (s : Schema m) : Option Nat := s.base.hints.maximumSize

def minimumSize? (s : Schema m) : Option Nat := s.base.hints.minimumSize

end Schema

end Intake
