import Intake.Json.Number

/-! JSON values whose objects keep the order of their keys, which equality does not count. -/

namespace Intake

inductive Json where
  | null
  | bool (b : Bool)
  | number (n : Number)
  | string (s : String)
  | array (items : List Json)
  | object (entries : List (String × Json))

namespace Json

def typeName : Json → String
  | .null => "null"
  | .bool _ => "boolean"
  | .number _ => "number"
  | .string _ => "string"
  | .array _ => "array"
  | .object _ => "object"

def isNull : Json → Bool
  | .null => true
  | _ => false

def isEmptyText : Json → Bool
  | .string s => s = ""
  | _ => false

def entries : Json → List (String × Json)
  | .object entries => entries
  | _ => []

def items : Json → List Json
  | .array items => items
  | _ => []

def text : Json → String
  | .string s => s
  | _ => ""

@[simp] theorem items_array (xs : List Json) : (array xs).items = xs := rfl

@[simp] theorem text_string (s : String) : (string s).text = s := rfl

def get? (v : Json) (name : String) : Option Json := v.entries.lookup name

mutual

def same : Json → Json → Bool
  | .null, .null => true
  | .bool a, .bool b => a == b
  | .number m, .number n => m.same n
  | .string s, .string t => s == t
  | .array xs, .array ys => sameItems xs ys
  | .object xs, .object ys => xs.length == ys.length && sameEntries xs ys
  | _, _ => false

def sameItems : List Json → List Json → Bool
  | [], [] => true
  | x :: xs, y :: ys => same x y && sameItems xs ys
  | _, _ => false

def sameEntries : List (String × Json) → List (String × Json) → Bool
  | [], _ => true
  | (name, x) :: xs, ys =>
    (match ys.lookup name with
      | some y => same x y
      | none => false) && sameEntries xs ys

end

mutual

def keys : Json → List String
  | .array xs => itemKeys xs
  | .object xs => entryKeys xs
  | _ => []

def itemKeys : List Json → List String
  | [] => []
  | x :: xs => keys x ++ itemKeys xs

def entryKeys : List (String × Json) → List String
  | [] => []
  | (name, x) :: xs => name :: keys x ++ entryKeys xs

end

mutual

def WellFormed : Json → Prop
  | .array xs => WellFormedItems xs
  | .object xs => (xs.map Prod.fst).Nodup ∧ WellFormedEntries xs
  | _ => True

def WellFormedItems : List Json → Prop
  | [] => True
  | x :: xs => WellFormed x ∧ WellFormedItems xs

def WellFormedEntries : List (String × Json) → Prop
  | [] => True
  | (_, x) :: xs => WellFormed x ∧ WellFormedEntries xs

end

end Json

end Intake
