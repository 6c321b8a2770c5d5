import Intake.FileInfo
import Intake.Text.Units

namespace Intake

inductive Constraint where
  | minimumLength (n : Nat)
  | maximumLength (n : Nat)
  | notEmpty
  | minimum (limit : Limit)
  | maximum (limit : Limit)
  | integer
  | positive
  | negative
  | mimeType (allowed : List String)
  | maximumSize (bytes : Nat)
  | minimumSize (bytes : Nat)
  | minimumItems (n : Nat)
  | maximumItems (n : Nat)

namespace Constraint

def ofNumber (test : Binary64 → Bool) : Json → Bool
  | .number n => test n.toBinary64
  | _ => true

def ofFile (test : FileInfo → Bool) (v : Json) : Bool :=
  match FileInfo.ofJson? v with
  | some file => test file
  | none => true

def accepts : Constraint → Json → Bool
  | minimumLength n, v => n ≤ unitLength v.text
  | maximumLength n, v => unitLength v.text ≤ n
  | notEmpty, v => v.text ≠ ""
  | minimum limit, v => ofNumber (fun x => !limit.exceeds x) v
  | maximum limit, v => ofNumber (fun x => !limit.exceededBy x) v
  | integer, v => ofNumber Binary64.isWhole v
  | positive, v => ofNumber (fun x => 0 < x.quanta) v
  | negative, v => ofNumber (fun x => x.quanta < 0) v
  | mimeType allowed, v => ofFile (fun file => allowed.contains file.mimeType) v
  | maximumSize bytes, v => ofFile (fun file => file.size.toNat ≤ bytes) v
  | minimumSize bytes, v => ofFile (fun file => bytes ≤ file.size.toNat) v
  | minimumItems n, v => n ≤ v.items.length
  | maximumItems n, v => v.items.length ≤ n

def name : Constraint → String
  | minimumLength _ => "minimumLength"
  | maximumLength _ => "maximumLength"
  | notEmpty => "notEmpty"
  | minimum _ => "minimum"
  | maximum _ => "maximum"
  | integer => "integer"
  | positive => "positive"
  | negative => "negative"
  | mimeType _ => "mimeType"
  | maximumSize _ => "maximumSizeInBytes"
  | minimumSize _ => "minimumSizeInBytes"
  | minimumItems _ => "minimumItems"
  | maximumItems _ => "maximumItems"

def errorIdentifier : Constraint → String
  | minimumLength _ => "tooShort"
  | maximumLength _ => "tooLong"
  | notEmpty => "empty"
  | minimum _ => "tooSmall"
  | maximum _ => "tooLarge"
  | integer => "notInteger"
  | positive => "notPositive"
  | negative => "notNegative"
  | mimeType _ => "invalidMimeType"
  | maximumSize _ => "fileTooLarge"
  | minimumSize _ => "fileTooSmall"
  | minimumItems _ => "tooFewItems"
  | maximumItems _ => "tooManyItems"

def errorMessage : Constraint → String
  | minimumLength n => "Must be at least " ++ toString n ++ " characters."
  | maximumLength n => "Must be at most " ++ toString n ++ " characters."
  | notEmpty => "Must not be empty."
  | minimum limit => "Must be at least " ++ limit.text ++ "."
  | maximum limit => "Must be at most " ++ limit.text ++ "."
  | integer => "Must be a whole number."
  | positive => "Must be greater than 0."
  | negative => "Must be less than 0."
  | mimeType allowed => "File type must be one of: " ++ ", ".intercalate allowed ++ "."
  | maximumSize bytes => "File must be at most " ++ tenths bytes (1024 * 1024) ++ " MB."
  | minimumSize bytes => "File must be at least " ++ tenths bytes 1024 ++ " KB."
  | minimumItems n => "Must contain at least " ++ toString n ++ " items."
  | maximumItems n => "Must contain at most " ++ toString n ++ " items."

def outcome (c : Constraint) (v : Json) (path : Path) : Outcome :=
  if c.accepts v then .pass else .fail ⟨path, c.errorIdentifier, c.errorMessage, none⟩

end Constraint

/-- The limits on files that are set last, to be shown beside a form. -/
structure FileHints where
  allowedMimeTypes : Option (List String)
  maximumSize : Option Nat
  minimumSize : Option Nat

namespace FileHints

def empty : FileHints := ⟨none, none, none⟩

def noted (h : FileHints) : Constraint → FileHints
  | .mimeType allowed => { h with allowedMimeTypes := some allowed }
  | .maximumSize bytes => { h with maximumSize := some bytes }
  | .minimumSize bytes => { h with minimumSize := some bytes }
  | _ => h

end FileHints

end Intake
