import Intake.Reading.Error
import Intake.Report.Basic

namespace Intake

class Readable (α : Type) where
  read : Json → Except ReadError α

export Readable (read)

instance : Readable String where
  read
    | .string s => .ok s
    | v => .error (.expected "a string" v)

instance : Readable Bool where
  read
    | .bool b => .ok b
    | v => .error (.expected "a boolean" v)

def readWhole {α : Type} (type : String) (narrow : Whole → Option α) :
    Json → Except ReadError α
  | .number (.whole n) =>
    match narrow n with
    | some x => .ok x
    | none => .error (.wrongValue (.whole n) type)
  | v => .error (.expected type v)

instance : Readable Int64 := ⟨readWhole "i64" Whole.toInt64?⟩

instance : Readable UInt64 := ⟨readWhole "u64" Whole.toUInt64?⟩

instance : Readable Binary64 where
  read
    | .number n => .ok n.toBinary64
    | v => .error (.expected "f64" v)

def readAll {α : Type} [Readable α] : List Json → Except ReadError (List α)
  | [] => .ok []
  | v :: vs => do
    let x ← read v
    let xs ← readAll vs
    return x :: xs

instance {α : Type} [Readable α] : Readable (List α) where
  read
    | .array vs => readAll vs
    | v => .error (.expected "a sequence" v)

instance {α : Type} [Readable α] : Readable (Option α) where
  read
    | .null => .ok none
    | v => some <$> read v

def readVariant {α : Type} (decode : String → Except ReadError α) : Json → Except ReadError α
  | .string name => decode name
  | .object [(name, content)] => do
    let x ← decode name
    match content with
    | .null => return x
    | content => throw (.expected "unit" content)
  | .object _ => .error (.wrongValue .map "map with a single key")
  | v => .error (.expected "string or map" v)

def Report.readValue {α : Type} [Readable α] (r : Report) : Except ReadError α :=
  read (r.value.getD .null)

end Intake
