import Intake.Numeric.Shortest

namespace Intake

namespace Decimal

def digits (d : Decimal) : String := toString d.coefficient

def point (d : Decimal) : Int := d.digits.length + d.exponent

def zeros (n : Nat) : String := String.ofList (List.replicate n '0')

def positional (d : Decimal) : String :=
  let before := d.point.toNat
  if 0 ≤ d.exponent then d.digits ++ zeros d.exponent.toNat
  else if d.point ≤ 0 then "0." ++ zeros (-d.point).toNat ++ d.digits
  else String.ofList (d.digits.toList.take before) ++ "." ++
    String.ofList (d.digits.toList.drop before)

def scientific (d : Decimal) : String :=
  let power := d.point - 1
  let mantissa := match d.digits.toList with
    | lead :: more@(_ :: _) => String.ofList [lead] ++ "." ++ String.ofList more
    | few => String.ofList few
  mantissa ++ (if power < 0 then "e-" else "e+") ++ toString power.natAbs

end Decimal

namespace Binary64

def sign (negative : Bool) : String := if negative then "-" else ""

def text (x : Binary64) : String :=
  let d := shortest .even x.rank
  sign x.negative ++
    if d.coefficient = 0 then "0.0"
    else if -5 < d.point ∧ d.point ≤ 16 then
      d.positional ++ if 0 ≤ d.exponent then ".0" else ""
    else d.scientific

def plainText (x : Binary64) : String :=
  sign x.negative ++ (shortest .up x.rank).positional

end Binary64

def Limit.text : Limit → String
  | .finite x => x.plainText
  | .infinite negative => Binary64.sign negative ++ "inf"
  | .undefined => "NaN"

def roundDiv (num den : Nat) : Nat :=
  Binary64.roundUpward (num / den) (compare (2 * (num % den)) den)

def nearestWhole (n : Nat) : Nat :=
  Binary64.magnitude (Binary64.nearestRank (n * Binary64.quantaPerUnit) 1) / Binary64.quantaPerUnit

def tenths (n unit : Nat) : String :=
  let t := roundDiv (10 * nearestWhole n) unit
  toString (t / 10) ++ "." ++ toString (t % 10)

end Intake
