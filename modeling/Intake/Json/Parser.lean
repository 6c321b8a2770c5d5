import Intake.Json.Basic
import Intake.Keyed

/-! Reading JSON text: a whole number that fits 64 bits stays one, and of two members with one name
the later value is kept, in the earlier place. -/

namespace Intake

namespace Json

def isSpace (c : Char) : Bool := c == ' ' || c == '\t' || c == '\n' || c == '\r'

def skipBlanks (s : List Char) : List Char := s.dropWhile isSpace

def digitsValue (s : List Char) : Nat := s.foldl (fun n c => 10 * n + (c.toNat - '0'.toNat)) 0

def hexValue? (c : Char) : Option Nat :=
  if c.isDigit then some (c.toNat - '0'.toNat)
  else if 'a' ≤ c ∧ c ≤ 'f' then some (c.toNat - 'a'.toNat + 10)
  else if 'A' ≤ c ∧ c ≤ 'F' then some (c.toNat - 'A'.toNat + 10)
  else none

def hexUnit? (a b c d : Char) : Option Nat := do
  let a ← hexValue? a
  let b ← hexValue? b
  let c ← hexValue? c
  let d ← hexValue? d
  return ((a * 16 + b) * 16 + c) * 16 + d

def escaped? : Char → Option Char
  | '"' => some '"'
  | '\\' => some '\\'
  | '/' => some '/'
  | 'b' => some '\x08'
  | 'f' => some '\x0c'
  | 'n' => some '\n'
  | 'r' => some '\r'
  | 't' => some '\t'
  | _ => none

def isHigh (unit : Nat) : Bool := 0xD800 ≤ unit && unit < 0xDC00

def isLow (unit : Nat) : Bool := 0xDC00 ≤ unit && unit < 0xE000

def paired (high low : Nat) : Char :=
  Char.ofNat (0x10000 + (high - 0xD800) * 0x400 + (low - 0xDC00))

def readText (high : Option Nat) (read : List Char) : List Char → Option (String × List Char)
  | [] => none
  | '"' :: rest => if high.isSome then none else some (String.ofList read.reverse, rest)
  | '\\' :: 'u' :: a :: b :: c :: d :: rest => do
    let unit ← hexUnit? a b c d
    match high with
    | some high => if isLow unit then readText none (paired high unit :: read) rest else none
    | none =>
      if isHigh unit then readText (some unit) read rest
      else if isLow unit then none
      else readText none (Char.ofNat unit :: read) rest
  | '\\' :: c :: rest =>
    if high.isSome then none else do readText none ((← escaped? c) :: read) rest
  | c :: rest =>
    if high.isSome || c.toNat < 0x20 then none else readText none (c :: read) rest

structure NumberText where
  negative : Bool
  whole : List Char
  fraction : Option (List Char)
  power : Option Int

namespace NumberText

/-- Beyond this many decimal places a number is past every double, or rounds to zero. -/
def placeLimit : Int := 400

def toBinary64? (t : NumberText) : Option Binary64 :=
  let fraction := t.fraction.getD []
  let digits := t.whole ++ fraction
  let coefficient := digitsValue digits
  let exponent := t.power.getD 0 - fraction.length
  if coefficient = 0 ∨ digits.length + exponent < -placeLimit then
    some ⟨t.negative, Binary64.zero.rank⟩
  else if placeLimit < exponent then none
  else Binary64.nearest? t.negative (coefficient * Nat.pow 10 exponent.toNat)
    (Nat.pow 10 (-exponent).toNat)

def toWhole? (t : NumberText) : Option Whole :=
  let n := digitsValue t.whole
  if t.fraction.isSome || t.power.isSome then none
  else if t.negative then if 0 < n ∧ n ≤ 0x8000000000000000 then Whole.ofInt? (-n) else none
  else Whole.ofInt? n

def value? (t : NumberText) : Option Number :=
  match t.toWhole? with
  | some n => some (.whole n)
  | none => t.toBinary64?.map .double

end NumberText

def readWhole (s : List Char) : Option (List Char × List Char) :=
  match s.span Char.isDigit with
  | ([], _) => none
  | ('0' :: _ :: _, _) => none
  | parts => some parts

def readFraction : List Char → Option (Option (List Char) × List Char)
  | '.' :: s =>
    match s.span Char.isDigit with
    | ([], _) => none
    | (digits, rest) => some (some digits, rest)
  | s => some (none, s)

def readSign : List Char → Bool × List Char
  | '-' :: s => (true, s)
  | '+' :: s => (false, s)
  | s => (false, s)

def readPower : List Char → Option (Option Int × List Char)
  | [] => some (none, [])
  | c :: s =>
    if c = 'e' ∨ c = 'E' then
      let (negative, s) := readSign s
      match s.span Char.isDigit with
      | ([], _) => none
      | (digits, rest) =>
        some (some (if negative then -digitsValue digits else digitsValue digits), rest)
    else some (none, c :: s)

def readMinus : List Char → Bool × List Char
  | '-' :: s => (true, s)
  | s => (false, s)

def readNumber (s : List Char) : Option (Number × List Char) := do
  let (negative, s) := readMinus s
  let (whole, s) ← readWhole s
  let (fraction, s) ← readFraction s
  let (power, s) ← readPower s
  let n ← NumberText.value? ⟨negative, whole, fraction, power⟩
  return (n, s)

mutual

def readValue : Nat → List Char → Option (Json × List Char)
  | 0, _ => none
  | fuel + 1, s =>
    match skipBlanks s with
    | 'n' :: 'u' :: 'l' :: 'l' :: rest => some (.null, rest)
    | 't' :: 'r' :: 'u' :: 'e' :: rest => some (.bool true, rest)
    | 'f' :: 'a' :: 'l' :: 's' :: 'e' :: rest => some (.bool false, rest)
    | '"' :: rest => (readText none [] rest).map fun (s, rest) => (.string s, rest)
    | '[' :: rest =>
      match skipBlanks rest with
      | ']' :: rest => some (.array [], rest)
      | rest => (readItems fuel [] rest).map fun (xs, rest) => (.array xs, rest)
    | '\x7b' :: rest =>
      match skipBlanks rest with
      | '\x7d' :: rest => some (.object [], rest)
      | rest => (readEntries fuel [] rest).map fun (xs, rest) => (.object xs, rest)
    | rest => (readNumber rest).map fun (n, rest) => (.number n, rest)

def readItems : Nat → List Json → List Char → Option (List Json × List Char)
  | 0, _, _ => none
  | fuel + 1, read, s => do
    let (x, rest) ← readValue fuel s
    match skipBlanks rest with
    | ',' :: rest => readItems fuel (x :: read) rest
    | ']' :: rest => some ((x :: read).reverse, rest)
    | _ => none

def readEntries : Nat → List (String × Json) → List Char →
    Option (List (String × Json) × List Char)
  | 0, _, _ => none
  | fuel + 1, read, s =>
    match skipBlanks s with
    | '"' :: rest => do
      let (name, rest) ← readText none [] rest
      match skipBlanks rest with
      | ':' :: rest => do
        let (x, rest) ← readValue fuel rest
        match skipBlanks rest with
        | ',' :: rest => readEntries fuel (assign name x read) rest
        | '\x7d' :: rest => some (assign name x read, rest)
        | _ => none
      | _ => none
    | _ => none

end

def parse? (s : String) : Option Json :=
  match readValue (s.length + 1) s.toList with
  | some (v, rest) => if (skipBlanks rest).isEmpty then some v else none
  | none => none

end Json

end Intake
