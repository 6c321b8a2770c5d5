import Intake.Report.Basic

namespace Intake

structure Errors where
  first : Finding
  rest : List Finding

namespace Errors

def single (error : Finding) : Errors := ⟨error, []⟩

def ofList? : List Finding → Option Errors
  | [] => none
  | error :: rest => some ⟨error, rest⟩

def toList (e : Errors) : List Finding := e.first :: e.rest

def size (e : Errors) : Nat := e.toList.length

instance : Append Errors := ⟨fun a b => ⟨a.first, a.rest ++ b.toList⟩⟩

def atPath (e : Errors) (path : Path) : List Finding := e.toList.filter (·.path = path)

def withIdentifier (e : Errors) (identifier : String) : List Finding :=
  e.toList.filter (·.identifier = identifier)

def display (e : Errors) : String :=
  toString e.size ++ " validation error(s)" ++
    String.join (e.toList.map fun error => "\n- " ++ error.display)

@[simp] theorem toList_append (a b : Errors) : (a ++ b).toList = a.toList ++ b.toList := rfl

end Errors

inductive Verdict where
  | accepted (value : Option Json)
  | rejected (errors : Errors)

def Verdict.toExcept : Verdict → Except Errors (Option Json)
  | .accepted value => .ok value
  | .rejected errors => .error errors

namespace Report

def verdict (r : Report) : Verdict :=
  match Errors.ofList? r.errors with
  | none => .accepted r.value
  | some errors => .rejected errors

def toExcept (r : Report) : Except Errors (Option Json) := r.verdict.toExcept

end Report

end Intake
