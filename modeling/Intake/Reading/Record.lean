import Intake.Reading.Basic

/-! Reading records, from an object by the names of the fields or from a list by their order. -/

namespace Intake

structure FieldReader (α : Type) where
  faults : List (String × (Json → Option ReadError))
  ofEntries : List (String × Json) → Except ReadError α
  ofItems : List Json → Except (Option ReadError) (α × List Json)

namespace FieldReader

variable {α β : Type}

def fault? (reader : Json → Except ReadError α) (v : Json) : Option ReadError :=
  match reader v with
  | .ok _ => none
  | .error e => some e

def field (name : String) (reader : Json → Except ReadError α) (default : Option α) :
    FieldReader α where
  faults := [(name, fault? reader)]
  ofEntries entries :=
    match entries.lookup name, default with
    | some v, _ => reader v
    | none, some x => .ok x
    | none, none => .error (.missingField name)
  ofItems
    | v :: rest => match reader v with
      | .ok x => .ok (x, rest)
      | .error e => .error (some e)
    | [] => match default with
      | some x => .ok (x, [])
      | none => .error none

def required [Readable α] (name : String) : FieldReader α := field name read none

def optional (name : String) (reader : Json → Except ReadError α) (default : α) :
    FieldReader α :=
  field name reader (some default)

def and (f : FieldReader α) (g : FieldReader β) : FieldReader (α × β) where
  faults := f.faults ++ g.faults
  ofEntries entries := do
    let x ← f.ofEntries entries
    let y ← g.ofEntries entries
    return (x, y)
  ofItems items := do
    let (x, rest) ← f.ofItems items
    let (y, rest) ← g.ofItems rest
    return ((x, y), rest)

def firstFault? (f : FieldReader α) (entries : List (String × Json)) : Option ReadError :=
  entries.findSome? fun (name, v) => (f.faults.lookup name).bind (· v)

def arity (f : FieldReader α) (record : String) : String :=
  let n := f.faults.length
  "struct " ++ record ++ " with " ++ toString n ++ (if n = 1 then " element" else " elements")

def read (record : String) (f : FieldReader α) : Json → Except ReadError α
  | .object entries =>
    match f.firstFault? entries with
    | some e => .error e
    | none => f.ofEntries entries
  | .array items =>
    match f.ofItems items with
    | .ok (x, []) => .ok x
    | .ok (_, _ :: _) => .error (.wrongLength items.length "fewer elements in array")
    | .error none => .error (.wrongLength items.length (f.arity record))
    | .error (some e) => .error e
  | v => .error (.expected ("struct " ++ record) v)

end FieldReader

end Intake
