import Intake.Remote
import Intake.Constraint
import Intake.Text.EmailAddress

namespace Intake

inductive Check (m : Type → Type) where
  | limit (constraint : Constraint)
  | emailAddress
  | remote (ask : Json → m Answer)
  | custom (run : Json → Path → m Outcome)

def emailOutcome (s : String) (path : Path) : Outcome :=
  if s = "" then .pass
  else if isEmailAddress s.toList then
    .succeed ⟨path, "validEmailAddress", "Valid email address.", none⟩
  else .fail ⟨path, "invalidEmailAddress", "Invalid email address.", none⟩

variable {m : Type → Type}

def Check.run [Monad m] (c : Check m) (v : Json) (path : Path) : m Outcome :=
  match c with
  | limit constraint => pure (constraint.outcome v path)
  | emailAddress => pure (emailOutcome v.text path)
  | remote ask => do return (← ask v).outcome path
  | custom run => run v path

structure Registration (m : Type → Type) where
  identifier : String
  check : Check m
  message : Option String
  rule : Option RuleReference

def Finding.reworded (message : Option String) (f : Finding) : Finding :=
  { f with message := message.getD f.message }

def Finding.referred (rule : Option RuleReference) (f : Finding) : Finding :=
  { f with rule := f.rule <|> rule }

namespace Registration

def present (r : Registration m) (o : Outcome) : Outcome where
  errors := o.errors.map fun f => (f.reworded r.message).referred r.rule
  successes := o.successes.map (Finding.referred r.rule)

def run [Monad m] (r : Registration m) (v : Json) (path : Path) : m Outcome :=
  r.present <$> r.check.run v path

def runAll [Monad m] (rs : List (Registration m)) (v : Json) (path : Path) : m Outcome :=
  match rs with
  | [] => pure .pass
  | r :: rs => do
    let o ← r.run v path
    let os ← runAll rs v path
    return o ++ os

end Registration

end Intake
