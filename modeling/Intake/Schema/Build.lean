import Intake.Keyed
import Intake.Schema.Basic

namespace Intake

def modifyLast {α : Type} (f : α → α) : List α → List α
  | [] => []
  | [x] => [f x]
  | x :: y :: rest => x :: modifyLast f (y :: rest)

variable {m : Type → Type}

namespace Base

def register (b : Base m) (identifier : String) (check : Check m) : Base m :=
  { b with registrations := b.registrations ++ [⟨identifier, check, none, none⟩] }

def limit (b : Base m) (constraint : Constraint) : Base m :=
  { b with hints := b.hints.noted constraint }.register constraint.name (.limit constraint)

def modifyLast (b : Base m) (f : Registration m → Registration m) : Base m :=
  { b with registrations := Intake.modifyLast f b.registrations }

def setMessage (b : Base m) (message : String) : Base m :=
  b.modifyLast fun r => { r with message := some message }

def setRule (b : Base m) (rule : RuleReference) : Base m :=
  b.modifyLast fun r => { r with rule := some rule }

end Base

namespace Schema

def string : Schema m := scalar .string .empty

def number : Schema m := scalar .number .empty

def boolean : Schema m := scalar .boolean .empty

def file : Schema m := scalar .file .empty

def arrayOf (items : Schema m) : Schema m := array .empty items

def emptyObject : Schema m := object .empty []

def modifyBase (f : Base m → Base m) : Schema m → Schema m
  | scalar kind base => scalar kind (f base)
  | array base items => array (f base) items
  | object base fields => object (f base) fields
  | custom leaf => custom { leaf with base := f leaf.base }

def optional (s : Schema m) : Schema m := s.modifyBase fun b => { b with optional := true }

def nullable (s : Schema m) : Schema m := s.modifyBase fun b => { b with nullable := true }

def withDefault (s : Schema m) (value : Json) : Schema m :=
  s.modifyBase fun b => { b with default := some value }

def register (s : Schema m) (identifier : String) (check : Check m) : Schema m :=
  s.modifyBase (·.register identifier check)

def limit (s : Schema m) (constraint : Constraint) : Schema m :=
  s.modifyBase (·.limit constraint)

def emailAddress (s : Schema m) : Schema m := s.register "emailAddress" .emailAddress

def remoteCheck (s : Schema m) (ask : Json → m Answer) : Schema m :=
  s.register "remoteCheck" (.remote ask)

def message (s : Schema m) (text : String) : Schema m := s.modifyBase (·.setMessage text)

def rule (s : Schema m) (reference : RuleReference) : Schema m :=
  s.modifyBase (·.setRule reference)

def field (s : Schema m) (name : String) (schema : Schema m) : Schema m :=
  match s with
  | object base fields => object base (assign name schema fields)
  | s => s

end Schema

inductive Step (m : Type → Type) where
  | optional
  | nullable
  | default (value : Json)
  | message (text : String)
  | rule (reference : RuleReference)
  | limit (constraint : Constraint)
  | emailAddress
  | remoteCheck (ask : Json → m Answer)
  | custom (identifier : String) (run : Json → Path → m Outcome)
  | field (name : String) (schema : Schema m)

def Schema.apply (s : Schema m) : Step m → Schema m
  | .optional => s.optional
  | .nullable => s.nullable
  | .default value => s.withDefault value
  | .message text => s.message text
  | .rule reference => s.rule reference
  | .limit constraint => s.limit constraint
  | .emailAddress => s.emailAddress
  | .remoteCheck ask => s.remoteCheck ask
  | .custom identifier run => s.register identifier (.custom run)
  | .field name schema => s.field name schema

def Schema.applyAll (s : Schema m) (steps : List (Step m)) : Schema m := steps.foldl .apply s

end Intake
