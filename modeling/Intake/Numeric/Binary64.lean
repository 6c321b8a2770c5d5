/-! Finite doubles, exactly: `rank` counts the magnitudes `0, 2⁻¹⁰⁷⁴, 2 * 2⁻¹⁰⁷⁴, …`, and every
value is a whole number of quanta of `2⁻¹⁰⁷⁴`. -/

namespace Intake

abbrev rankLimit : Nat := 2047 <<< 52

structure Binary64 where
  negative : Bool
  rank : Fin rankLimit
  deriving DecidableEq

namespace Binary64

def leastExponent : Nat := 1074

def quantaPerUnit : Nat := 1 <<< leastExponent

def scale (rank : Nat) : Nat := rank >>> 52 - 1

/-- The magnitude at a rank, in quanta; one past the largest rank it continues the sequence. -/
def magnitude (rank : Nat) : Nat := (rank - scale rank <<< 52) <<< scale rank

def floorRank (q : Nat) : Nat := (q.log2 - 52) <<< 52 + q >>> (q.log2 - 52)

def roundUpward (below : Nat) : Ordering → Nat
  | .lt => below
  | .eq => below + below % 2
  | .gt => below + 1

def nearestRank (num den : Nat) : Nat :=
  let below := floorRank (num / den)
  roundUpward below (compare (2 * num) (den * (magnitude below + magnitude (below + 1))))

def quanta (x : Binary64) : Int :=
  if x.negative then -(magnitude x.rank : Int) else magnitude x.rank

def nearest? (negative : Bool) (num den : Nat) : Option Binary64 :=
  let rank := nearestRank (num * quantaPerUnit) den
  if h : rank < rankLimit then some ⟨negative, rank, h⟩ else none

theorem one_shiftLeft (n : Nat) : 1 <<< n = Nat.pow 2 n :=
  (Nat.shiftLeft_eq 1 n).trans (Nat.one_mul _)

theorem shiftRight_log2_lt (q : Nat) : q >>> (q.log2 - 52) < 1 <<< 53 := by
  rw [Nat.shiftRight_eq_div_pow, Nat.div_lt_iff_lt_mul (Nat.two_pow_pos _), one_shiftLeft,
    Nat.pow_eq, ← Nat.pow_add]
  exact Nat.lt_of_lt_of_le Nat.lt_log2_self (Nat.pow_le_pow_right (by decide) (by omega))

theorem floorRank_lt (q k m : Nat) (h : q < 1 <<< m) (hm : m ≤ k + 52) :
    floorRank q < (k + 2) <<< 52 := by
  have hlog : q.log2 - 52 ≤ k := by
    by_cases hq : q = 0
    · subst hq; exact Nat.zero_le _
    · rw [one_shiftLeft] at h
      have := (Nat.log2_lt hq).2 h
      omega
  have hq := shiftRight_log2_lt q
  rw [floorRank]
  omega

theorem roundUpward_le (below : Nat) (o : Ordering) : roundUpward below o ≤ below + 1 := by
  cases o
  · exact Nat.le_succ _
  · exact Nat.add_le_add_left (Nat.le_of_lt_succ (Nat.mod_lt _ (by decide))) _
  · exact Nat.le_refl _

theorem nearestRank_le (num den : Nat) : nearestRank num den ≤ floorRank (num / den) + 1 :=
  roundUpward_le _ _

theorem mul_one_shiftLeft_lt (n a b : Nat) (h : n ≤ 1 <<< a) :
    n * 1 <<< b < 1 <<< (a + b + 1) := by
  simp only [one_shiftLeft, Nat.pow_eq] at h ⊢
  calc n * 2 ^ b ≤ 2 ^ a * 2 ^ b := Nat.mul_le_mul_right _ h
    _ = 2 ^ (a + b) := (Nat.pow_add ..).symm
    _ < 2 ^ (a + b + 1) := Nat.pow_lt_pow_right (by decide) (Nat.lt_succ_self _)

theorem nearestRank_lt_of_whole (n : Nat) (h : n ≤ 0x10000000000000000) :
    nearestRank (n * quantaPerUnit) 1 < rankLimit := by
  have hn := nearestRank_le (n * quantaPerUnit) 1
  rw [Nat.div_one] at hn
  have hq := floorRank_lt _ 1087 _ (mul_one_shiftLeft_lt n 64 leastExponent h) (by decide)
  exact Nat.lt_of_le_of_lt hn (Nat.lt_of_le_of_lt hq (by decide))

def ofInt (n : Int) (h : n.natAbs ≤ 0x10000000000000000) : Binary64 :=
  ⟨n < 0, nearestRank (n.natAbs * quantaPerUnit) 1, nearestRank_lt_of_whole _ h⟩

def isWhole (x : Binary64) : Bool := x.quanta % quantaPerUnit == 0

def sameValue (x y : Binary64) : Bool := x.quanta == y.quanta

def zero : Binary64 := ⟨false, 0, by decide⟩

end Binary64

inductive Limit where
  | finite (x : Binary64)
  | infinite (negative : Bool)
  | undefined
  deriving DecidableEq

namespace Limit

def exceeds : Limit → Binary64 → Bool
  | .finite b, x => x.quanta < b.quanta
  | .infinite negative, _ => !negative
  | .undefined, _ => false

def exceededBy : Limit → Binary64 → Bool
  | .finite b, x => b.quanta < x.quanta
  | .infinite negative, _ => negative
  | .undefined, _ => false

end Limit

end Intake
