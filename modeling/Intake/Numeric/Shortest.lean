import Intake.Numeric.Binary64

/-! The fewest decimal digits that read back as a given magnitude, and of those the nearest. -/

namespace Intake

structure Decimal where
  coefficient : Nat
  exponent : Int
  deriving DecidableEq

inductive Tie where
  | even
  | up

def Tie.nearer (tie : Tie) (c : Nat) : Ordering → Nat
  | .lt => c
  | .gt => c + 1
  | .eq => match tie with
    | .even => c + c % 2
    | .up => c + 1

namespace Binary64

structure RoundingInterval where
  low : Nat
  centre : Nat
  high : Nat
  closed : Bool

def roundingInterval (rank : Nat) : RoundingInterval where
  low := magnitude (rank - 1) + magnitude rank
  centre := 2 * magnitude rank
  high := magnitude rank + magnitude (rank + 1)
  closed := rank % 2 == 0

def RoundingInterval.contains (i : RoundingInterval) (num den : Nat) : Bool :=
  if i.closed then i.low * den ≤ num && num ≤ i.high * den
  else i.low * den < num && num < i.high * den

def RoundingInterval.multiple? (i : RoundingInterval) (tie : Tie) (exponent : Int) : Option Nat :=
  let unit := Nat.pow 10 exponent.toNat * (2 * quantaPerUnit)
  let den := Nat.pow 10 (-exponent).toNat
  let c := i.centre * den / unit
  match i.contains (c * unit) den, i.contains ((c + 1) * unit) den with
  | true, true => some (tie.nearer c (compare (2 * i.centre * den) ((2 * c + 1) * unit)))
  | true, false => some c
  | false, true => some (c + 1)
  | false, false => none

def RoundingInterval.topExponent (i : RoundingInterval) : Int :=
  ((i.high.log2 : Int) - leastExponent) * 30103 / 100000 + 1

def bottomExponent : Int := -324

def RoundingInterval.exponents (i : RoundingInterval) : List Int :=
  (List.range (i.topExponent - bottomExponent + 1).toNat).map fun (k : Nat) => i.topExponent - k

def shortest (tie : Tie) (rank : Nat) : Decimal :=
  if rank = 0 then ⟨0, 0⟩
  else
    let i := roundingInterval rank
    (i.exponents.findSome? fun e => (i.multiple? tie e).map (Decimal.mk · e)).getD ⟨0, 0⟩

end Binary64

end Intake
