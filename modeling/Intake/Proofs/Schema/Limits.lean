import Intake.Proofs.Schema.Conformance
import Intake.Proofs.Schema.Steps

namespace Intake

lemma getLast?_eq_some_iff_mem {α : Type} {xs : List α} (h : xs.length ≤ 1) {x : α} :
    xs.getLast? = some x ↔ x ∈ xs := by
  match xs, h with
  | [], _ => simp
  | [y], _ => simp [eq_comm]

variable {m : Type → Type}

namespace Step

def OnlyLimits (kind : Kind) : Step m → Prop
  | limit c => c.kind = kind
  | emailAddress | remoteCheck _ | custom _ _ => False
  | _ => True

instance (kind : Kind) (step : Step m) : Decidable (step.OnlyLimits kind) :=
  match step with
  | limit c => inferInstanceAs (Decidable (c.kind = kind))
  | emailAddress | remoteCheck _ | custom _ _ => instDecidableFalse
  | optional | nullable | default _ | message _ | rule _ | field _ _ => instDecidableTrue

def limits (path : Path) : List (Step m) → List (Constraint × Finding)
  | [] => []
  | step :: rest =>
    match step.limit? with
    | some c => (c, ⟨path, c.errorIdentifier, (last message? (leading rest)).getD c.errorMessage,
        last rule? (leading rest)⟩) :: limits path rest
    | none => limits path rest

lemma mem_limit? {steps : List (Step m)} {c : Constraint} :
    c ∈ steps.filterMap limit? ↔ .limit c ∈ steps := by
  rw [List.mem_filterMap]
  constructor
  · rintro ⟨step, hs, hc⟩
    cases step with
    | limit c' => exact Option.some.inj hc ▸ hs
    | _ => cases hc
  · exact fun h => ⟨_, h, rfl⟩

lemma map_fst_limits (path : Path) (steps : List (Step m)) :
    (limits path steps).map Prod.fst = steps.filterMap limit? := by
  induction steps with
  | nil => rfl
  | cons step rest ih => cases hc : step.limit? <;> simp [limits, hc, ih]

lemma identifier_of_mem_limits {path : Path} {steps : List (Step m)} {x : Constraint × Finding}
    (h : x ∈ limits path steps) : x.2.identifier = x.1.errorIdentifier := by
  induction steps with
  | nil => exact absurd h List.not_mem_nil
  | cons step rest ih =>
    rw [limits] at h
    cases hc : step.limit? with
    | none =>
      rw [hc] at h
      exact ih h
    | some c =>
      rw [hc] at h
      rcases List.mem_cons.1 h with rfl | h
      · rfl
      · exact ih h

lemma exists_error_iff {steps : List (Step m)} (v : Json) (path : Path) (identifier : String) :
    (∃ e ∈ ((limits path steps).filter fun x => !x.1.accepts v).map Prod.snd,
        e.identifier = identifier) ↔
      ∃ c, .limit c ∈ steps ∧ c.accepts v = false ∧ c.errorIdentifier = identifier := by
  simp only [← mem_limit?, ← map_fst_limits path, List.mem_map, List.mem_filter, Bool.not_eq_true']
  constructor
  · rintro ⟨_, ⟨x, ⟨hx, ha⟩, rfl⟩, he⟩
    exact ⟨x.1, ⟨x, hx, rfl⟩, ha, identifier_of_mem_limits hx ▸ he⟩
  · rintro ⟨_, ⟨x, hx, rfl⟩, ha, he⟩
    exact ⟨x.2, ⟨x, ⟨hx, ha⟩, rfl⟩, (identifier_of_mem_limits hx).trans he⟩

lemma broken_eq_nil {p : Constraint → Prop} [DecidablePred p] {steps : List (Step m)}
    (path : Path) : ((limits path steps).filter fun x => ¬ p x.1).map Prod.snd = [] ↔
      ∀ c, .limit c ∈ steps → p c := by
  rw [List.map_eq_nil_iff, List.filter_eq_nil_iff]
  simp only [← mem_limit?, ← map_fst_limits path, List.forall_mem_map, decide_not, Bool.not_eq_true,
    Bool.not_eq_false', decide_eq_true_eq]

def given {α : Type} (select : Constraint → Option α) (steps : List (Step m)) : List α :=
  (steps.filterMap limit?).filterMap select

lemma mem_given {α : Type} {select : Constraint → Option α} {steps : List (Step m)} {x : α} :
    x ∈ given select steps ↔ ∃ c, .limit c ∈ steps ∧ select c = some x := by
  simp only [given, List.mem_filterMap (l := steps.filterMap limit?), mem_limit?]

variable [Monad m] [LawfulMonad m]

lemma runAll_registrations {kind : Kind} {steps : List (Step m)}
    (hs : ∀ step ∈ steps, step.OnlyLimits kind) (v : Json) (path : Path) :
    Registration.runAll (registrations steps) v path =
      pure ⟨((limits path steps).filter fun x => !x.1.accepts v).map Prod.snd, []⟩ := by
  induction steps with
  | nil => rfl
  | cons step rest ih =>
    obtain ⟨h, hr⟩ := List.forall_mem_cons.1 hs
    cases step with
    | limit c =>
      let r : Registration m := ⟨c.name, .limit c, last message? (leading rest),
        last rule? (leading rest)⟩
      have ho : Registration.runAll [r] v path = pure (r.present (c.outcome v path)) :=
        r.runAll_single rfl
      refine (Registration.runAll_append ho (ih hr)).trans (congrArg pure ?_)
      rw [limits, limit?, Constraint.outcome]
      cases hc : c.accepts v with
      | true => rw [List.filter_cons_of_neg (by simp [hc])]; rfl
      | false => rw [List.filter_cons_of_pos (by simp [hc])]; rfl
    | emailAddress | remoteCheck _ | custom _ _ => exact h.elim
    | _ => exact ih hr

end Step

namespace Schema

lemma admission_described {b : Base m} {kind : ScalarKind} {v : Json}
    (hv : (Kind.scalar kind).Describes v) (he : v.isEmptyText = false) :
    b.admission (.scalar kind) (some v) = .admitted v := by
  refine (Base.admission_eq_admitted ..).2 ⟨rfl, ?_, by rw [he, Bool.false_and],
    (Kind.accepts_iff _ _).2 hv⟩
  rw [← Bool.not_eq_true, Json.isNull_iff]
  rintro rfl
  cases kind <;> obtain ⟨_, h⟩ := hv <;> cases h

variable [Monad m] [LawfulMonad m]

lemma exists_validateAt_scalar {kind : ScalarKind} (base : Base m) {judge : Json → Path → Outcome}
    (hj : ∀ w path, Registration.runAll base.registrations w path = pure (judge w path))
    (v : Option Json) (path : Path) :
    ∃ r : Report, (scalar kind base).validateAt v path = pure r ∧ r.value = v ∧
      (r.isValid = true ↔
        base.Allows (.scalar kind) (fun w => (judge w path).errors = []) v) := by
  rw [validateAt, Base.enter, Base.allows_iff]
  cases ha : base.admission (.scalar kind) v with
  | exempt => exact ⟨_, rfl, rfl, iff_of_true rfl (Or.inl rfl)⟩
  | refused why => exact ⟨_, rfl, rfl, iff_of_false Bool.false_ne_true (by simp)⟩
  | admitted w =>
    obtain ⟨rfl, -⟩ := (Base.admission_eq_admitted ..).1 ha
    refine ⟨_, Base.conclude_nil (hj w path), rfl, ?_⟩
    rw [Report.isValid_iff]
    simp

lemma exists_validateAt_limits {kind : ScalarKind} {steps : List (Step m)}
    (hs : ∀ step ∈ steps, step.OnlyLimits (.scalar kind)) (v : Option Json) (path : Path) :
    ∃ r : Report, ((scalar kind .empty).applyAll steps).validateAt v path = pure r ∧ r.value = v ∧
      (r.isValid = true ↔ (Base.ofSteps steps).Allows (.scalar kind)
        (fun w => ∀ c, .limit c ∈ steps → c.accepts w = true) v) := by
  rw [applyAll_scalar, Base.foldl_after_empty]
  obtain ⟨r, hr, hv, hi⟩ := exists_validateAt_scalar (Base.ofSteps steps)
    (fun w path => Step.runAll_registrations hs w path) v path
  refine ⟨r, hr, hv, hi.trans ?_⟩
  simp only [← Step.broken_eq_nil path, decide_not, Bool.decide_eq_true]

theorem validateAt_limits {kind : ScalarKind} {steps : List (Step m)}
    (hs : ∀ step ∈ steps, step.OnlyLimits (.scalar kind)) {v : Json}
    (hv : (Kind.scalar kind).Describes v) (he : v.isEmptyText = false) (path : Path) :
    ((scalar kind .empty).applyAll steps).validateAt (some v) path = pure
      (.ofOutcome ⟨((Step.limits path steps).filter fun x => !x.1.accepts v).map Prod.snd, []⟩
        (some v)) := by
  rw [applyAll_scalar, Base.foldl_after_empty, validateAt, Base.enter, admission_described hv he]
  exact Base.conclude_nil (Step.runAll_registrations hs v path)

end Schema

end Intake
