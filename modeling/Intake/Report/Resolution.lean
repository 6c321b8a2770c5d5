import Intake.Keyed
import Intake.Report.Basic

/-! A report as a form takes it: the values of a valid one, or one error for each field of an
invalid one. -/

namespace Intake

structure FieldError where
  type : String
  message : String
  deriving DecidableEq

structure Resolution where
  values : Json
  errors : List (String × FieldError)

def Path.formKey (p : Path) : String := if p.isRoot then "root" else p.dotted

def Finding.fieldError (f : Finding) : FieldError := ⟨f.identifier, f.message⟩

def firstErrors (errors : List Finding) : List (String × FieldError) :=
  errors.foldl (fun known error => assignNew known error.path.formKey error.fieldError) []

namespace Resolution

def isValid (r : Resolution) : Bool := r.errors.isEmpty

end Resolution

def Report.resolution (r : Report) : Resolution :=
  if r.isValid then ⟨r.value.getD (.object []), []⟩
  else ⟨.object [], firstErrors r.errors⟩

end Intake
