import Intake.Reading.Basic

namespace Intake

inductive Availability where
  | available
  | taken
  | invalid
  | forbidden
  deriving DecidableEq

namespace Availability

def name : Availability → String
  | available => "Available"
  | taken => "Taken"
  | invalid => "Invalid"
  | forbidden => "Forbidden"

def all : List Availability := [available, taken, invalid, forbidden]

def ofName (name : String) : Except ReadError Availability :=
  match all.find? (·.name = name) with
  | some a => .ok a
  | none => .error (.unknownVariant name (all.map Availability.name))

instance : Readable Availability := ⟨readVariant ofName⟩

def outcome (a : Availability) (path : Path) : Outcome :=
  match a with
  | available => .succeed ⟨path, "available", "Available.", none⟩
  | taken => .fail ⟨path, "taken", "Already taken.", none⟩
  | invalid => .fail ⟨path, "invalid", "Invalid.", none⟩
  | forbidden => .fail ⟨path, "forbidden", "Not allowed.", none⟩

end Availability

inductive RemoteError where
  | transport (text : String)
  | missingField (field : String)
  | malformed (error : ReadError)

def RemoteError.message : RemoteError → String
  | transport text => "remote check failed: " ++ text
  | missingField field => "remote check response has no `" ++ field ++ "` field"
  | malformed error => "remote check response is malformed: " ++ error.message

abbrev Answer := Except RemoteError Availability

namespace Answer

def ofResponse (payload : Json) (field : String) : Answer :=
  match payload.get? field with
  | none => .error (.missingField field)
  | some v => (read v : Except ReadError Availability).mapError .malformed

def outcome (a : Answer) (path : Path) : Outcome :=
  match a with
  | .ok a => a.outcome path
  | .error _ =>
    .fail ⟨path, "graphqlError", "Could not be verified. Please try again.", none⟩

end Answer

abbrev Asking := StateM (List Json)

def noting (ask : Json → Answer) (v : Json) : Asking Answer := do
  modify (· ++ [v])
  return ask v

end Intake
