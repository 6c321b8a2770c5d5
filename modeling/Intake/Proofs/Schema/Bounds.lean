import Intake.Proofs.Numeric.Rounding
import Intake.Proofs.Schema.Limits

namespace Intake

namespace Constraint

def FiniteBound : Constraint → Prop
  | minimum limit | maximum limit => ∃ b, limit = .finite b
  | _ => True

lemma errorIdentifier_eq_tooSmall {c : Constraint} :
    c.errorIdentifier = "tooSmall" ↔ ∃ limit, c = minimum limit := by
  cases c <;> simp [errorIdentifier]

lemma errorIdentifier_eq_tooLarge {c : Constraint} :
    c.errorIdentifier = "tooLarge" ↔ ∃ limit, c = maximum limit := by
  cases c <;> simp [errorIdentifier]

section Whole

variable (n : Whole) (b : Binary64)

lemma minimum_accepts_whole : (minimum (.finite b)).accepts (.number (.whole n)) = false ↔
    n.val < b.value ∧ n.toBinary64.value ≠ b.value := by
  rw [← n.nearest_toBinary64.lt_iff, Binary64.value_lt_value]
  simp only [accepts, ofNumber, Limit.exceeds, Number.toBinary64, Bool.not_eq_false']
  exact decide_eq_true_iff

lemma maximum_accepts_whole : (maximum (.finite b)).accepts (.number (.whole n)) = false ↔
    b.value < n.val ∧ n.toBinary64.value ≠ b.value := by
  rw [← n.nearest_toBinary64.gt_iff, Binary64.value_lt_value]
  simp only [accepts, ofNumber, Limit.exceededBy, Number.toBinary64, Bool.not_eq_false']
  exact decide_eq_true_iff

end Whole

end Constraint

variable {m : Type → Type}

lemma Step.exists_bound_error {steps : List (Step m)} {bound : Limit → Constraint}
    {identifier : String} (hb : ∀ c : Constraint, c.errorIdentifier = identifier ↔ ∃ l, c = bound l)
    (hf : ∀ l, .limit (bound l) ∈ steps → ∃ b, l = .finite b) (v : Json) (path : Path) :
    (∃ e ∈ ((limits path steps).filter fun x => !x.1.accepts v).map Prod.snd,
        e.identifier = identifier) ↔
      ∃ b, .limit (bound (.finite b)) ∈ steps ∧ (bound (.finite b)).accepts v = false := by
  rw [exists_error_iff]
  constructor
  · rintro ⟨c, hc, ha, he⟩
    obtain ⟨l, rfl⟩ := (hb c).1 he
    obtain ⟨b, rfl⟩ := hf l hc
    exact ⟨b, hc, ha⟩
  · rintro ⟨b, hc, ha⟩
    exact ⟨_, hc, ha, (hb _).2 ⟨_, rfl⟩⟩

namespace Schema

/-- A whole number is below a minimum, or above a maximum, if it is so exactly and is not rounded to
the bound itself. -/
theorem validateAt_bounds [Monad m] [LawfulMonad m] {steps : List (Step m)}
    (hs : ∀ step ∈ steps, step.OnlyLimits (.scalar .number))
    (hf : ∀ c, .limit c ∈ steps → c.FiniteBound) (n : Whole) (path : Path) :
    let x := n.toBinary64
    x.Nearest n.val ∧ (n.val.natAbs ≤ 2 ^ 53 → x.value = n.val) ∧
      ∃ r : Report, (number.applyAll steps).validateAt (some (.number (.whole n))) path = pure r ∧
        ((∃ e ∈ r.errors, e.identifier = "tooSmall") ↔
          ∃ b : Binary64, .limit (.minimum (.finite b)) ∈ steps ∧ n.val < b.value ∧
            x.value ≠ b.value) ∧
        ((∃ e ∈ r.errors, e.identifier = "tooLarge") ↔
          ∃ b : Binary64, .limit (.maximum (.finite b)) ∈ steps ∧ b.value < n.val ∧
            x.value ≠ b.value) := by
  intro x
  have hr := validateAt_limits hs (v := .number (.whole n)) ⟨_, rfl⟩ rfl path
  refine ⟨n.nearest_toBinary64, n.value_toBinary64, _, hr, ?_, ?_⟩
  · refine (Step.exists_bound_error (fun _ => Constraint.errorIdentifier_eq_tooSmall)
      (fun _ => hf _) _ path).trans ?_
    exact exists_congr fun b => and_congr_right' (Constraint.minimum_accepts_whole n b)
  · refine (Step.exists_bound_error (fun _ => Constraint.errorIdentifier_eq_tooLarge)
      (fun _ => hf _) _ path).trans ?_
    exact exists_congr fun b => and_congr_right' (Constraint.maximum_accepts_whole n b)

def lastExact : Whole := ⟨0x20000000000000, by decide, by decide⟩

def firstRounded : Whole := ⟨0x20000000000001, by decide, by decide⟩

lemma toBinary64_firstRounded : firstRounded.toBinary64 = lastExact.toBinary64 := by
  decide +kernel

theorem validateAt_bounds_firstRounded :
    let next := (Whole.mk 0x20000000000002 (by decide) (by decide)).toBinary64
    let steps : List (Step Id) := [.limit (.maximum (.finite lastExact.toBinary64)), .optional,
      .limit (.minimum (.finite next)), .message "Too little."]
    LawfulMonad Id ∧ (∀ step ∈ steps, step.OnlyLimits (.scalar .number)) ∧
      (∀ c, .limit c ∈ steps → c.FiniteBound) ∧ lastExact.val.natAbs ≤ 2 ^ 53 ∧
      lastExact.toBinary64.value = lastExact.val ∧
      ∃ r : Report,
        (number.applyAll steps).validateAt (some (.number (.whole firstRounded))) .root = r ∧
        (∃ e ∈ r.errors, e.identifier = "tooSmall") ∧
        ¬ ∃ e ∈ r.errors, e.identifier = "tooLarge" := by
  intro next steps
  have hs : ∀ step ∈ steps, step.OnlyLimits (.scalar .number) := by decide
  have hf : ∀ c, .limit c ∈ steps → c.FiniteBound := by
    intro c hc
    simp only [steps, List.mem_cons, Step.limit.injEq, reduceCtorEq, List.not_mem_nil, or_false,
      false_or] at hc
    rcases hc with rfl | rfl <;> exact ⟨_, rfl⟩
  obtain ⟨-, he, -⟩ := validateAt_bounds hs hf lastExact .root
  obtain ⟨hn, -, r, hr, hl, hm⟩ := validateAt_bounds hs hf firstRounded .root
  have hx : firstRounded.toBinary64.value < next.value :=
    Binary64.value_lt_value.2 (by decide +kernel)
  refine ⟨inferInstance, hs, hf, by decide, he (by decide), r, hr, hl.2 ⟨next, ?_, hn.lt_iff.1 hx⟩,
    fun h => ?_⟩
  · simp [steps]
  · obtain ⟨b, hb, -, hne⟩ := hm.1 h
    simp only [steps, List.mem_cons, Step.limit.injEq, Constraint.maximum.injEq, Limit.finite.injEq,
      reduceCtorEq, List.not_mem_nil, or_false] at hb
    rw [hb, toBinary64_firstRounded] at hne
    exact hne rfl

theorem not_bounds_exact :
    ¬ ∀ (n : Whole) (b : Binary64),
      let least : Report := (number.limit (.minimum (.finite b)) : Schema Id).validateAt
        (some (.number (.whole n))) .root
      let most : Report := (number.limit (.maximum (.finite b)) : Schema Id).validateAt
        (some (.number (.whole n))) .root
      ((∃ e ∈ least.errors, e.identifier = "tooSmall") ↔ n.val < b.value) ∧
        ((∃ e ∈ most.errors, e.identifier = "tooLarge") ↔ b.value < n.val) := by
  intro h
  obtain ⟨-, hm⟩ := h firstRounded lastExact.toBinary64
  have hb : lastExact.toBinary64.value < firstRounded.val := by
    rw [lastExact.value_toBinary64 (by decide), Int.cast_lt]
    decide
  have hv : ((number.limit (.maximum (.finite lastExact.toBinary64)) : Schema Id).validateAt
      (some (.number (.whole firstRounded))) .root : Report).errors.isEmpty = true := by
    decide +kernel
  obtain ⟨e, he, -⟩ := hm.2 hb
  rw [List.isEmpty_iff.1 hv] at he
  exact List.not_mem_nil he

end Schema

end Intake
