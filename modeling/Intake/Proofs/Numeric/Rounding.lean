import Intake.Json.Number
import Mathlib.Algebra.Order.Field.Basic
import Mathlib.Algebra.Order.Field.Rat
import Mathlib.Order.Monotone.Basic
import Mathlib.Tactic.Linarith
import Mathlib.Tactic.Ring

/-! Doubles as exact rational numbers, and that a whole number becomes the nearest of them. -/

namespace Intake

namespace Binary64

lemma exists_significand (rank : Nat) :
    ∃ k t, rank = k <<< 52 + t ∧ t < 2 ^ 53 ∧ (k = 0 ∨ 2 ^ 52 ≤ t) := by
  refine ⟨scale rank, rank - scale rank <<< 52, ?_⟩
  rw [scale]
  omega

section Significand

variable {k t : Nat} (ht : t < 2 ^ 53) (hk : k = 0 ∨ 2 ^ 52 ≤ t)

include ht hk

lemma scale_significand : scale (k <<< 52 + t) = k := by
  rw [scale]
  omega

lemma magnitude_significand : magnitude (k <<< 52 + t) = t * 2 ^ k := by
  rw [magnitude, scale_significand ht hk, Nat.add_sub_cancel_left, Nat.shiftLeft_eq]

end Significand

lemma magnitude_succ (rank : Nat) : magnitude (rank + 1) = magnitude rank + 2 ^ scale rank := by
  obtain ⟨k, t, rfl, ht, hk⟩ := exists_significand rank
  rw [scale_significand ht hk, magnitude_significand ht hk, ← Nat.add_one_mul, Nat.add_assoc]
  by_cases hs : t + 1 < 2 ^ 53
  · rw [magnitude_significand hs (hk.imp_right Nat.le_succ_of_le)]
  · -- the next significand is the least one of the next scale
    have hf : t + 1 = 2 ^ 53 := by omega
    have hr : k <<< 52 + 2 ^ 53 = (k + 1) <<< 52 + 2 ^ 52 := by omega
    rw [hf, hr, magnitude_significand (by decide) (Or.inr (Nat.le_refl _))]
    omega

lemma magnitude_strictMono : StrictMono magnitude :=
  strictMono_nat_of_lt_succ fun rank => by
    rw [magnitude_succ]
    exact Nat.lt_add_of_pos_right (Nat.two_pow_pos _)

lemma significand_floorRank (q : Nat) :
    q >>> (q.log2 - 52) < 2 ^ 53 ∧ (q.log2 - 52 = 0 ∨ 2 ^ 52 ≤ q >>> (q.log2 - 52)) := by
  refine ⟨shiftRight_log2_lt q, or_iff_not_imp_left.2 fun hk => ?_⟩
  have hq : q ≠ 0 := by
    rintro rfl
    exact hk rfl
  rw [Nat.shiftRight_eq_div_pow, Nat.le_div_iff_mul_le (Nat.two_pow_pos _), ← Nat.pow_add]
  exact (Nat.pow_le_pow_right (by decide) (by omega)).trans (Nat.log2_self_le hq)

lemma magnitude_floorRank (q : Nat) :
    magnitude (floorRank q) = q / 2 ^ (q.log2 - 52) * 2 ^ (q.log2 - 52) := by
  obtain ⟨ht, hk⟩ := significand_floorRank q
  rw [floorRank, magnitude_significand ht hk, Nat.shiftRight_eq_div_pow]

lemma mul_two_pow_lt {c : Nat} (hc : c < 2 ^ 53) (k : Nat) : c * 2 ^ k < 2 ^ (53 + k) := by
  rw [Nat.pow_add]
  exact Nat.mul_lt_mul_of_pos_right hc (Nat.two_pow_pos k)

lemma magnitude_floorRank_eq {c : Nat} (hc : c < 2 ^ 53) (k : Nat) :
    magnitude (floorRank (c * 2 ^ k)) = c * 2 ^ k := by
  rw [magnitude_floorRank]
  apply Nat.div_mul_cancel
  by_cases h0 : c * 2 ^ k = 0
  · exact h0 ▸ Nat.dvd_zero _
  · have hg := (Nat.log2_lt h0).2 (mul_two_pow_lt hc k)
    exact (Nat.pow_dvd_pow 2 (by omega)).trans (Nat.dvd_mul_left _ _)

lemma magnitude_floorRank_le (q : Nat) : magnitude (floorRank q) ≤ q := by
  rw [magnitude_floorRank]
  exact Nat.div_mul_le_self q _

lemma lt_magnitude_floorRank_succ (q : Nat) : q < magnitude (floorRank q + 1) := by
  obtain ⟨ht, hk⟩ := significand_floorRank q
  rw [magnitude_succ, magnitude_floorRank, floorRank, scale_significand ht hk]
  exact Nat.lt_div_mul_add (Nat.two_pow_pos _)

lemma nearestRank_cases (q : Nat) :
    let low := magnitude (floorRank q)
    let high := magnitude (floorRank q + 1)
    (nearestRank q 1 = floorRank q ∧ 2 * q ≤ low + high ∨
        nearestRank q 1 = floorRank q + 1 ∧ low + high ≤ 2 * q) ∧
      (2 * q = low + high → nearestRank q 1 % 2 = 0) := by
  intro low high
  have hn : nearestRank q 1 = roundUpward (floorRank q) (compare (2 * q) (low + high)) := by
    rw [nearestRank, Nat.div_one, Nat.one_mul]
  rw [hn]
  cases hc : compare (2 * q) (low + high) with
  | lt =>
    have hl := Nat.compare_eq_lt.1 hc
    exact ⟨Or.inl ⟨rfl, hl.le⟩, fun he => absurd he hl.ne⟩
  | gt =>
    have hl := Nat.compare_eq_gt.1 hc
    exact ⟨Or.inr ⟨rfl, hl.le⟩, fun he => absurd he hl.ne'⟩
  | eq =>
    have he := Nat.compare_eq_eq.1 hc
    rw [roundUpward]
    omega

lemma magnitude_le_or_le (q rank : Nat) : magnitude rank ≤ magnitude (floorRank q) ∨
    magnitude (floorRank q + 1) ≤ magnitude rank :=
  (Nat.lt_or_ge (floorRank q) rank).symm.imp (magnitude_strictMono.monotone ·)
    (magnitude_strictMono.monotone ·)

lemma nearestRank_nearest (q rank : Nat) :
    ((magnitude (nearestRank q 1) : Int) - q).natAbs ≤ ((magnitude rank : Int) - q).natAbs := by
  have hl := magnitude_floorRank_le q
  have hh := lt_magnitude_floorRank_succ q
  have hr := magnitude_le_or_le q rank
  obtain ⟨⟨hn, hc⟩ | ⟨hn, hc⟩, -⟩ := nearestRank_cases q <;> rw [hn] <;> omega

lemma nearestRank_even {q r : Nat} (hm : magnitude r ≠ magnitude (nearestRank q 1))
    (hd : ((magnitude (nearestRank q 1) : Int) - q).natAbs = ((magnitude r : Int) - q).natAbs) :
    nearestRank q 1 % 2 = 0 := by
  have hl := magnitude_floorRank_le q
  have hh := lt_magnitude_floorRank_succ q
  have hr := magnitude_le_or_le q r
  obtain ⟨⟨hn, hc⟩ | ⟨hn, hc⟩, he⟩ := nearestRank_cases q <;> rw [hn] at hm hd <;>
    exact he (by omega)

lemma quantaPerUnit_pos : 0 < quantaPerUnit := by
  rw [quantaPerUnit, Nat.shiftLeft_eq, Nat.one_mul]
  exact Nat.two_pow_pos _

def value (x : Binary64) : ℚ := x.quanta / quantaPerUnit

lemma value_lt_value {x y : Binary64} : x.value < y.value ↔ x.quanta < y.quanta := by
  rw [value, value, div_lt_div_iff_of_pos_right (Nat.cast_pos.2 quantaPerUnit_pos), Int.cast_lt]

/-- No double is nearer to the number, and if another is as near, this is the even one. -/
structure Nearest (x : Binary64) (q : ℚ) : Prop where
  nearest : ∀ y : Binary64, |x.value - q| ≤ |y.value - q|
  even : ∀ y : Binary64, |x.value - q| = |y.value - q| → x.value ≠ y.value → x.rank.val % 2 = 0

lemma nearest_value (x : Binary64) : x.Nearest x.value := by
  refine ⟨fun y => ?_, fun y hd hv => ?_⟩
  · rw [sub_self, abs_zero]
    exact abs_nonneg _
  · rw [sub_self, abs_zero, eq_comm, abs_eq_zero, sub_eq_zero] at hd
    exact absurd hd.symm hv

namespace Nearest

variable {x b : Binary64} {q : ℚ}

lemma le_of_le (h : x.Nearest q) (hb : q ≤ b.value) : x.value ≤ b.value := by
  have hn := h.nearest b
  rw [abs_of_nonneg (sub_nonneg.2 hb)] at hn
  linarith [le_abs_self (x.value - q)]

lemma ge_of_ge (h : x.Nearest q) (hb : b.value ≤ q) : b.value ≤ x.value := by
  have hn := h.nearest b
  rw [abs_of_nonpos (sub_nonpos.2 hb)] at hn
  linarith [neg_abs_le (x.value - q)]

lemma lt_iff (h : x.Nearest q) : x.value < b.value ↔ q < b.value ∧ x.value ≠ b.value := by
  constructor
  · exact fun hx => ⟨lt_of_not_ge fun hb => not_le_of_gt hx (h.ge_of_ge hb), hx.ne⟩
  · exact fun ⟨hq, hx⟩ => lt_of_le_of_ne (h.le_of_le hq.le) hx

lemma gt_iff (h : x.Nearest q) : b.value < x.value ↔ b.value < q ∧ x.value ≠ b.value := by
  constructor
  · exact fun hx => ⟨lt_of_not_ge fun hb => not_le_of_gt hx (h.le_of_le hb), hx.ne'⟩
  · exact fun ⟨hq, hx⟩ => lt_of_le_of_ne (h.ge_of_ge hq.le) hx.symm

lemma value_eq (h : x.Nearest q) (hb : b.value = q) : x.value = q :=
  le_antisymm (hb ▸ h.le_of_le hb.ge) (hb ▸ h.ge_of_ge hb.le)

end Nearest

lemma abs_value_sub (x : Binary64) (n : Int) :
    |x.value - n| = ((x.quanta - n * quantaPerUnit).natAbs : ℚ) / quantaPerUnit := by
  have hp : (0 : ℚ) < quantaPerUnit := Nat.cast_pos.2 quantaPerUnit_pos
  rw [value, div_sub' hp.ne', abs_div, abs_of_pos hp, Nat.cast_natAbs, mul_comm]
  push_cast
  rfl

lemma quanta_nearest (negative : Bool) (q : Nat) (h : nearestRank q 1 < rankLimit) (y : Binary64) :
    let goal : Int := if negative then -q else q
    let x : Binary64 := ⟨negative, nearestRank q 1, h⟩
    (x.quanta - goal).natAbs ≤ (y.quanta - goal).natAbs ∧
      ((x.quanta - goal).natAbs = (y.quanta - goal).natAbs → x.quanta ≠ y.quanta →
        nearestRank q 1 % 2 = 0) := by
  -- a number of the other sign is no nearer than zero is
  have hz := nearestRank_nearest q 0
  have hy := nearestRank_nearest q y.rank
  have hez := nearestRank_even (q := q) (r := 0)
  have hey := nearestRank_even (q := q) (r := y.rank)
  have h0 : magnitude 0 = 0 := by decide
  rw [h0] at hz hez
  simp only [quanta]
  cases negative <;> cases y.negative <;>
    simp only [if_true, Bool.false_eq_true, if_false] <;> omega

lemma signed_natAbs (n : Int) (k : Nat) :
    (if decide (n < 0) then -((n.natAbs * k : Nat) : Int) else ((n.natAbs * k : Nat) : Int)) =
      n * k := by
  by_cases hn : n < 0
  · rw [if_pos (decide_eq_true hn), Nat.cast_mul, Int.ofNat_natAbs_of_nonpos hn.le, neg_mul,
      neg_neg]
  · rw [if_neg (by simpa using hn), Nat.cast_mul, Int.natAbs_of_nonneg (not_lt.1 hn)]

lemma exists_value {n : Int} {c k : Nat} (hn : n.natAbs = c * 2 ^ k) (hc : c < 2 ^ 53)
    (hk : k ≤ 970) : ∃ x : Binary64, x.value = n := by
  have hl : leastExponent = 1074 := rfl
  have hq : n.natAbs * quantaPerUnit = c * 2 ^ (k + leastExponent) := by
    rw [hn, quantaPerUnit, one_shiftLeft, Nat.pow_eq, Nat.mul_assoc, ← Nat.pow_add]
  have hr : floorRank (n.natAbs * quantaPerUnit) < rankLimit := by
    have hs : n.natAbs * quantaPerUnit < 1 <<< (53 + (k + leastExponent)) := by
      rw [hq, one_shiftLeft, Nat.pow_eq]
      exact mul_two_pow_lt hc _
    refine (floorRank_lt _ (k + leastExponent + 1) _ hs (by omega)).trans_le ?_
    rw [rankLimit]
    omega
  have hm : magnitude (floorRank (n.natAbs * quantaPerUnit)) = n.natAbs * quantaPerUnit := by
    rw [hq, magnitude_floorRank_eq hc]
  have hp : (quantaPerUnit : ℚ) ≠ 0 := (Nat.cast_pos.2 quantaPerUnit_pos).ne'
  refine ⟨⟨n < 0, _, hr⟩, ?_⟩
  rw [value, quanta, hm, signed_natAbs, Int.cast_mul, Int.cast_natCast, mul_div_cancel_right₀ _ hp]

end Binary64

namespace Whole

theorem nearest_toBinary64 (n : Whole) : n.toBinary64.Nearest n.val := by
  have hp : (0 : ℚ) < Binary64.quantaPerUnit := Nat.cast_pos.2 Binary64.quantaPerUnit_pos
  have hn (y : Binary64) := Binary64.quanta_nearest (n.val < 0)
    (n.val.natAbs * Binary64.quantaPerUnit) (Binary64.nearestRank_lt_of_whole _ n.natAbs_le) y
  simp only [Binary64.signed_natAbs] at hn
  refine ⟨fun y => ?_, fun y hd hv => ?_⟩
  · rw [Binary64.abs_value_sub, Binary64.abs_value_sub, div_le_div_iff_of_pos_right hp, Nat.cast_le]
    exact (hn y).1
  · rw [Binary64.abs_value_sub, Binary64.abs_value_sub, div_left_inj' hp.ne', Nat.cast_inj] at hd
    refine (hn y).2 hd fun hq => hv ?_
    rw [Binary64.value, Binary64.value]
    exact congrArg (fun k : Int => (k : ℚ) / Binary64.quantaPerUnit) hq

lemma value_toBinary64 (n : Whole) (hn : n.val.natAbs ≤ 2 ^ 53) : n.toBinary64.value = n.val := by
  have hx : ∃ x : Binary64, x.value = n.val := by
    rcases Nat.lt_or_eq_of_le hn with h | h
    · exact Binary64.exists_value (k := 0) (Nat.mul_one _).symm h (Nat.zero_le _)
    · exact Binary64.exists_value (c := 1) (k := 53) h (by decide) (by decide)
  obtain ⟨x, hx⟩ := hx
  exact n.nearest_toBinary64.value_eq hx

end Whole

def Number.value : Number → ℚ
  | whole n => n.val
  | double x => x.value

theorem Number.nearest_toBinary64 (n : Number) : n.toBinary64.Nearest n.value := by
  cases n with
  | whole n => exact n.nearest_toBinary64
  | double x => exact x.nearest_value

end Intake
