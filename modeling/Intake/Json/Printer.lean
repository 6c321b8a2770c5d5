import Intake.Json.Basic
import Intake.Numeric.Layout
import Intake.Text.Units

namespace Intake

def hexDigits (width n : Nat) : List Char :=
  (List.range width).reverse.map fun i => Nat.digitChar (n >>> (4 * i) % 16)

namespace Json

inductive Charset where
  | full
  | ascii

def escapeUnit (n : Nat) : List Char := '\\' :: 'u' :: hexDigits 4 n

def escape (charset : Charset) (c : Char) : List Char :=
  match c with
  | '"' => ['\\', '"']
  | '\\' => ['\\', '\\']
  | '\x08' => ['\\', 'b']
  | '\t' => ['\\', 't']
  | '\n' => ['\\', 'n']
  | '\x0c' => ['\\', 'f']
  | '\r' => ['\\', 'r']
  | c =>
    if c.toNat < 0x20 then escapeUnit c.toNat
    else match charset with
      | .full => [c]
      | .ascii => if c.toNat < 0x80 then [c] else (units c).flatMap escapeUnit

def quote (charset : Charset) (s : String) : String :=
  "\"" ++ String.ofList (s.toList.flatMap (escape charset)) ++ "\""

end Json

def Number.text : Number → String
  | .whole n => toString n.val
  | .double x => x.text

namespace Json

def enclose (opening closing : String) (parts : List String) : String :=
  opening ++ ",".intercalate parts ++ closing

mutual

def render (charset : Charset) : Json → String
  | .null => "null"
  | .bool b => if b then "true" else "false"
  | .number n => n.text
  | .string s => quote charset s
  | .array xs => enclose "[" "]" (renderItems charset xs)
  | .object xs => enclose "\x7b" "\x7d" (renderEntries charset xs)

def renderItems (charset : Charset) : List Json → List String
  | [] => []
  | x :: xs => render charset x :: renderItems charset xs

def renderEntries (charset : Charset) : List (String × Json) → List String
  | [] => []
  | (name, x) :: xs => (quote charset name ++ ":" ++ render charset x) :: renderEntries charset xs

end

def compact (v : Json) : String := v.render .full

end Json

end Intake
