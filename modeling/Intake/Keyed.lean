/-! Lists of named values in which each name stands once and keeps its place. -/

namespace Intake

def assign {α : Type} (name : String) (value : α) : List (String × α) → List (String × α)
  | [] => [(name, value)]
  | (n, x) :: rest =>
    if n = name then (name, value) :: rest else (n, x) :: assign name value rest

def assignNew {α : Type} (entries : List (String × α)) (name : String) (value : α) :
    List (String × α) :=
  match entries.lookup name with
  | some _ => entries
  | none => entries ++ [(name, value)]

end Intake
