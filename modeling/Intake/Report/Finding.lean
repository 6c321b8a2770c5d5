import Intake.Json.Basic
import Intake.Path

namespace Intake

structure RuleReference where
  identifier : String
  parameters : Option (List Json)

structure Finding where
  path : Path
  identifier : String
  message : String
  rule : Option RuleReference

def Finding.display (f : Finding) : String :=
  (if f.path.isRoot then "(root)" else f.path.display) ++ ": " ++ f.message

structure Outcome where
  errors : List Finding
  successes : List Finding

namespace Outcome

def pass : Outcome := ⟨[], []⟩

def fail (error : Finding) : Outcome := ⟨[error], []⟩

def succeed (success : Finding) : Outcome := ⟨[], [success]⟩

def withError (o : Outcome) (error : Finding) : Outcome :=
  { o with errors := o.errors ++ [error] }

def withSuccess (o : Outcome) (success : Finding) : Outcome :=
  { o with successes := o.successes ++ [success] }

def isValid (o : Outcome) : Bool := o.errors.isEmpty

instance : Append Outcome := ⟨fun a b => ⟨a.errors ++ b.errors, a.successes ++ b.successes⟩⟩

@[simp] theorem errors_append (a b : Outcome) : (a ++ b).errors = a.errors ++ b.errors := rfl

@[simp] theorem successes_append (a b : Outcome) :
    (a ++ b).successes = a.successes ++ b.successes := rfl

@[simp] theorem errors_pass : pass.errors = [] := rfl

@[simp] theorem successes_pass : pass.successes = [] := rfl

end Outcome

end Intake
