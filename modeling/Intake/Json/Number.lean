import Intake.Numeric.Binary64

namespace Intake

structure Whole where
  val : Int
  lower : -0x8000000000000000 ≤ val
  upper : val < 0x10000000000000000
  deriving DecidableEq

namespace Whole

theorem natAbs_le (n : Whole) : n.val.natAbs ≤ 0x10000000000000000 := by
  have := n.lower
  have := n.upper
  omega

def ofInt? (n : Int) : Option Whole :=
  if h : -0x8000000000000000 ≤ n ∧ n < 0x10000000000000000 then some ⟨n, h.1, h.2⟩ else none

def ofUInt64 (n : UInt64) : Whole :=
  ⟨n.toNat, by omega, by have := n.toNat_lt; omega⟩

def ofInt64 (n : Int64) : Whole :=
  ⟨n.toInt, by have := n.le_toInt; omega, by have := n.toInt_lt; omega⟩

def toUInt64? (n : Whole) : Option UInt64 :=
  if 0 ≤ n.val then some (UInt64.ofNat n.val.toNat) else none

def toInt64? (n : Whole) : Option Int64 :=
  if n.val < 0x8000000000000000 then some (Int64.ofInt n.val) else none

def toBinary64 (n : Whole) : Binary64 := .ofInt n.val n.natAbs_le

end Whole

inductive Number where
  | whole (n : Whole)
  | double (x : Binary64)
  deriving DecidableEq

namespace Number

def toBinary64 : Number → Binary64
  | .whole n => n.toBinary64
  | .double x => x

def same : Number → Number → Bool
  | .whole m, .whole n => m.val == n.val
  | .double x, .double y => x.sameValue y
  | _, _ => false

end Number

end Intake
