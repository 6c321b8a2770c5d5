import Intake.Proofs.FileHints
import Intake.Proofs.Schema.Trees
import Intake.Schema.Validate

/-! Schemas by the calls that build them. -/

namespace Intake

lemma modifyLast_concat {α : Type} (f : α → α) (xs : List α) (x : α) :
    modifyLast f (xs ++ [x]) = xs ++ [f x] := by
  induction xs with
  | nil => rfl
  | cons y rest ih =>
    cases rest with
    | nil => rfl
    | cons z rest => exact congrArg (y :: ·) ih

lemma modifyLast_eq_self {α : Type} {f : α → α} (h : ∀ x, f x = x) (xs : List α) :
    modifyLast f xs = xs := by
  rcases List.eq_nil_or_concat' xs with rfl | ⟨rest, x, rfl⟩
  · rfl
  · rw [modifyLast_concat, h]

lemma modifyLast_modifyLast {α : Type} (f g : α → α) (xs : List α) :
    modifyLast g (modifyLast f xs) = modifyLast (fun x => g (f x)) xs := by
  rcases List.eq_nil_or_concat' xs with rfl | ⟨rest, x, rfl⟩
  · rfl
  · rw [modifyLast_concat, modifyLast_concat, modifyLast_concat]

variable {m : Type → Type}

namespace Step

def isOptional : Step m → Bool
  | optional => true
  | _ => false

def isNullable : Step m → Bool
  | nullable => true
  | _ => false

def default? : Step m → Option Json
  | default value => some value
  | _ => none

def message? : Step m → Option String
  | message text => some text
  | _ => none

def rule? : Step m → Option RuleReference
  | rule reference => some reference
  | _ => none

def limit? : Step m → Option Constraint
  | limit c => some c
  | _ => none

def check? : Step m → Option (String × Check m)
  | limit constraint => some (constraint.name, .limit constraint)
  | emailAddress => some ("emailAddress", .emailAddress)
  | remoteCheck ask => some ("remoteCheck", .remote ask)
  | custom identifier run => some (identifier, .custom run)
  | _ => none

def field? : Step m → Option (String × Schema m)
  | field name schema => some (name, schema)
  | _ => none

def isLoose : Step m → Bool
  | optional | nullable | default _ | field _ _ => true
  | _ => false

def last {α : Type} (select : Step m → Option α) (steps : List (Step m)) : Option α :=
  (steps.filterMap select).getLast?

lemma last_append {α : Type} (select : Step m → Option α) (steps steps' : List (Step m)) :
    last select (steps ++ steps') = (last select steps').or (last select steps) := by
  rw [last, List.filterMap_append, List.getLast?_append]
  rfl

def leading (steps : List (Step m)) : List (Step m) := steps.takeWhile (·.check?.isNone)

lemma leading_cons_of_none {step : Step m} (h : step.check? = none) (rest : List (Step m)) :
    leading (step :: rest) = step :: leading rest :=
  List.takeWhile_cons_of_pos (Option.isNone_iff_eq_none.2 h)

lemma leading_cons_of_some {step : Step m} {c : String × Check m} (h : step.check? = some c)
    (rest : List (Step m)) : leading (step :: rest) = [] :=
  List.takeWhile_cons_of_neg (by simp [h])

/-- The checks in the order of their registration, each with the last message and the last rule that
are set between its own registration and the next. -/
def registrations : List (Step m) → List (Registration m)
  | [] => []
  | step :: rest =>
    match step.check? with
    | some (identifier, check) =>
      ⟨identifier, check, last message? (leading rest), last rule? (leading rest)⟩ ::
        registrations rest
    | none => registrations rest

lemma registrations_append {before : List (Step m)} (hb : ∀ y ∈ before, y.check? = none)
    (rest : List (Step m)) : registrations (before ++ rest) = registrations rest := by
  induction before with
  | nil => rfl
  | cons y before ih =>
    obtain ⟨hy, hb⟩ := List.forall_mem_cons.1 hb
    rw [List.cons_append, registrations, hy]
    exact ih hb

end Step

namespace Registration

def presented (r : Registration m) (steps : List (Step m)) : Registration m :=
  ⟨r.identifier, r.check, (Step.last Step.message? steps).or r.message,
    (Step.last Step.rule? steps).or r.rule⟩

lemma presented_nil (r : Registration m) : r.presented [] = r := rfl

lemma presented_new (identifier : String) (check : Check m) (steps : List (Step m)) :
    presented ⟨identifier, check, none, none⟩ steps =
      ⟨identifier, check, Step.last Step.message? steps, Step.last Step.rule? steps⟩ := by
  rw [presented, Option.or_none, Option.or_none]

lemma presented_append (r : Registration m) (steps steps' : List (Step m)) :
    (r.presented steps).presented steps' = r.presented (steps ++ steps') := by
  simp only [presented, Step.last_append, Option.or_assoc]

end Registration

attribute [ext] Base

namespace Base

def after (b : Base m) : Step m → Base m
  | .optional => { b with optional := true }
  | .nullable => { b with nullable := true }
  | .default value => { b with default := some value }
  | .message text => b.setMessage text
  | .rule reference => b.setRule reference
  | .limit constraint => b.limit constraint
  | .emailAddress => b.register "emailAddress" .emailAddress
  | .remoteCheck ask => b.register "remoteCheck" (.remote ask)
  | .custom identifier run => b.register identifier (.custom run)
  | .field _ _ => b

def ofSteps (steps : List (Step m)) : Base m where
  optional := steps.any Step.isOptional
  nullable := steps.any Step.isNullable
  default := Step.last Step.default? steps
  hints := .ofLimits (steps.filterMap Step.limit?)
  registrations := Step.registrations steps

lemma optional_after (b : Base m) (step : Step m) :
    (b.after step).optional = (b.optional || step.isOptional) := by
  cases step with
  | optional => exact (Bool.or_true _).symm
  | _ => exact (Bool.or_false _).symm

lemma nullable_after (b : Base m) (step : Step m) :
    (b.after step).nullable = (b.nullable || step.isNullable) := by
  cases step with
  | nullable => exact (Bool.or_true _).symm
  | _ => exact (Bool.or_false _).symm

lemma default_after (b : Base m) (step : Step m) :
    (b.after step).default = step.default?.or b.default := by
  cases step <;> rfl

lemma hints_after (b : Base m) (step : Step m) :
    (b.after step).hints = step.limit?.elim b.hints b.hints.noted := by
  cases step <;> rfl

lemma registrations_after (b : Base m) (step : Step m) :
    (b.after step).registrations = match step.check? with
      | some (identifier, check) => b.registrations ++ [⟨identifier, check, none, none⟩]
      | none => Intake.modifyLast (·.presented [step]) b.registrations := by
  have hs {step : Step m} (hm : step.message? = none) (hr : step.rule? = none) :
      Intake.modifyLast (·.presented [step]) b.registrations = b.registrations :=
    modifyLast_eq_self (fun r => by simp [Registration.presented, Step.last, hm, hr]) _
  cases step with
  | optional | nullable | default value | field name schema => exact (hs rfl rfl).symm
  | _ => rfl

section Run

variable (b : Base m) (steps : List (Step m))

lemma flag_foldl_after {flag : Base m → Bool} {sets : Step m → Bool}
    (h : ∀ b step, flag (b.after step) = (flag b || sets step)) :
    flag (steps.foldl after b) = (flag b || steps.any sets) := by
  induction steps generalizing b with
  | nil => exact (Bool.or_false _).symm
  | cons step rest ih => rw [List.foldl_cons, ih, h, List.any_cons, Bool.or_assoc]

lemma default_foldl_after :
    (steps.foldl after b).default = (Step.last Step.default? steps).or b.default := by
  induction steps generalizing b with
  | nil => rfl
  | cons step rest ih =>
    have hl : Step.last Step.default? [step] = step.default? := by
      cases h : step.default? <;> simp [Step.last, h]
    rw [List.foldl_cons, ih, default_after, ← List.singleton_append, Step.last_append, hl,
      Option.or_assoc]

lemma hints_foldl_after :
    (steps.foldl after b).hints = (steps.filterMap Step.limit?).foldl FileHints.noted b.hints := by
  induction steps generalizing b with
  | nil => rfl
  | cons step rest ih =>
    rw [List.foldl_cons, ih, hints_after, List.filterMap_cons]
    cases step.limit? <;> rfl

lemma registrations_foldl_after : (steps.foldl after b).registrations =
    Intake.modifyLast (·.presented (Step.leading steps)) b.registrations ++
      Step.registrations steps := by
  induction steps generalizing b with
  | nil => exact ((List.append_nil _).trans (modifyLast_eq_self Registration.presented_nil _)).symm
  | cons step rest ih =>
    rw [List.foldl_cons, ih, registrations_after, Step.registrations]
    cases hc : step.check? with
    | none =>
      simp only [Step.leading_cons_of_none hc, modifyLast_modifyLast,
        Registration.presented_append, List.singleton_append]
    | some c =>
      have hn : Intake.modifyLast (·.presented []) b.registrations = b.registrations :=
        modifyLast_eq_self Registration.presented_nil _
      rw [Step.leading_cons_of_some hc, hn, modifyLast_concat, Registration.presented_new,
        List.append_assoc, List.singleton_append]

end Run

lemma foldl_after_empty (steps : List (Step m)) : steps.foldl after .empty = ofSteps steps := by
  apply Base.ext
  · exact (flag_foldl_after _ steps optional_after).trans (Bool.false_or _)
  · exact (flag_foldl_after _ steps nullable_after).trans (Bool.false_or _)
  · exact (default_foldl_after _ steps).trans (Option.or_none)
  · exact (hints_foldl_after _ steps).trans (FileHints.foldl_noted_empty _)
  · exact registrations_foldl_after _ steps

lemma after_comm (b : Base m) {c d : Step m} (hc : c.isLoose = true)
    (hd : c.default? = none ∨ d.default? = none) : (b.after c).after d = (b.after d).after c := by
  cases c with
  | optional => cases d <;> rfl
  | nullable => cases d <;> rfl
  | field name schema => rfl
  | default value =>
    cases d with
    | default value' => rcases hd with h | h <;> cases h
    | _ => rfl
  | _ => cases hc

lemma ofSteps_append_cons {before : List (Step m)} (hb : ∀ y ∈ before, y.check? = none)
    {x : Step m} (hx : x.message?.isSome ∨ x.rule?.isSome) (rest : List (Step m)) :
    ofSteps (before ++ x :: rest) = ofSteps (before ++ rest) := by
  obtain ⟨ho, hn, hd, hl, hc⟩ : x.isOptional = false ∧ x.isNullable = false ∧
      x.default? = none ∧ x.limit? = none ∧ x.check? = none := by
    cases x with
    | message text => exact ⟨rfl, rfl, rfl, rfl, rfl⟩
    | rule reference => exact ⟨rfl, rfl, rfl, rfl, rfl⟩
    | _ => rcases hx with h | h <;> cases h
  apply Base.ext
  · simp [ofSteps, ho]
  · simp [ofSteps, hn]
  · simp [ofSteps, Step.last, hd]
  · simp [ofSteps, hl]
  · simp [ofSteps, Step.registrations_append hb, Step.registrations, hc]

end Base

namespace Schema

inductive Fresh : Schema m → Prop
  | scalar (kind : ScalarKind) : Fresh (scalar kind .empty)
  | array (items : Schema m) : Fresh (arrayOf items)
  | object : Fresh emptyObject

lemma base_apply (s : Schema m) (step : Step m) : (s.apply step).base = s.base.after step := by
  cases step with
  | field name schema => cases s <;> rfl
  | _ => exact base_modifyBase _ s

lemma base_applyAll (s : Schema m) (steps : List (Step m)) :
    (s.applyAll steps).base = steps.foldl Base.after s.base := by
  induction steps generalizing s with
  | nil => rfl
  | cons step rest ih => exact (ih (s.apply step)).trans (by rw [base_apply, List.foldl_cons])

lemma applyAll_scalar (kind : ScalarKind) (base : Base m) (steps : List (Step m)) :
    (scalar kind base).applyAll steps = scalar kind (steps.foldl Base.after base) := by
  induction steps generalizing base with
  | nil => rfl
  | cons step rest ih =>
    have ha : (scalar kind base).apply step = scalar kind (base.after step) := by
      cases step <;> rfl
    exact (congrArg (·.applyAll rest) ha).trans (ih _)

lemma applyAll_array (base : Base m) (items : Schema m) (steps : List (Step m)) :
    (array base items).applyAll steps = array (steps.foldl Base.after base) items := by
  induction steps generalizing base with
  | nil => rfl
  | cons step rest ih =>
    have ha : (array base items).apply step = array (base.after step) items := by
      cases step <;> rfl
    exact (congrArg (·.applyAll rest) ha).trans (ih _)

lemma applyAll_object (base : Base m) (fields : List (String × Schema m)) (steps : List (Step m)) :
    (object base fields).applyAll steps = object (steps.foldl Base.after base)
      ((steps.filterMap Step.field?).foldl (fun fields x => assign x.1 x.2 fields) fields) := by
  induction steps generalizing base fields with
  | nil => rfl
  | cons step rest ih =>
    have ha : (object base fields).apply step = object (base.after step)
        (step.field?.elim fields fun x => assign x.1 x.2 fields) := by
      cases step <;> rfl
    refine (congrArg (·.applyAll rest) ha).trans ((ih _ _).trans ?_)
    rw [List.foldl_cons, List.filterMap_cons]
    cases step.field? <;> rfl

namespace Fresh

variable {s : Schema m}

lemma base_eq (hs : s.Fresh) : s.base = .empty := by
  cases hs <;> rfl

lemma base_applyAll (hs : s.Fresh) (steps : List (Step m)) :
    (s.applyAll steps).base = .ofSteps steps := by
  rw [Schema.base_applyAll, hs.base_eq, Base.foldl_after_empty]

lemma applyAll_congr (hs : s.Fresh) {steps steps' : List (Step m)}
    (hb : Base.ofSteps steps = .ofSteps steps')
    (hf : (s.applyAll steps).fields = (s.applyAll steps').fields) :
    s.applyAll steps = s.applyAll steps' := by
  rw [← hs.base_applyAll, ← hs.base_applyAll] at hb
  cases hs with
  | scalar kind =>
    rw [applyAll_scalar, applyAll_scalar] at hb ⊢
    exact congrArg (Schema.scalar kind) hb
  | array items =>
    rw [arrayOf, applyAll_array, applyAll_array] at hb ⊢
    exact congrArg (Schema.array · items) hb
  | object =>
    rw [emptyObject, applyAll_object, applyAll_object] at hb hf ⊢
    exact congrArg₂ Schema.object hb hf

end Fresh

/-- Of each sort of call the last counts, and what is said of presentation goes to the check
registered before it. -/
theorem applyAll_fresh [Monad m] {s : Schema m} (hs : s.Fresh) :
    (∀ steps, (s.applyAll steps).base = .ofSteps steps) ∧
      (∀ before rest x, (∀ y ∈ before, y.check? = none) → x.message?.isSome ∨ x.rule?.isSome →
        (s.applyAll (before ++ x :: rest)).base = (s.applyAll (before ++ rest)).base) ∧
      (∀ before rest c d, c.isLoose = true → c.default? = none ∨ d.default? = none →
        (s.applyAll (before ++ c :: d :: rest)).base =
          (s.applyAll (before ++ d :: c :: rest)).base) ∧
      ∀ steps steps', Base.ofSteps steps = .ofSteps steps' →
        (s.applyAll steps).fields = (s.applyAll steps').fields →
        ∀ v path, (s.applyAll steps).validateAt v path = (s.applyAll steps').validateAt v path := by
  refine ⟨hs.base_applyAll, ?_, ?_, ?_⟩
  · intro before rest x hb hx
    rw [hs.base_applyAll, hs.base_applyAll, Base.ofSteps_append_cons hb hx]
  · intro before rest c d hc hd
    rw [base_applyAll, base_applyAll, List.foldl_append, List.foldl_append]
    exact congrArg (rest.foldl Base.after) (Base.after_comm _ hc hd)
  · intro steps steps' hb hf v path
    rw [hs.applyAll_congr hb hf]

theorem applyAll_fresh_string :
    let short : Step Id := .limit (.minimumLength 3)
    let steps : List (Step Id) := [.message "Lost.", .optional, short, .message "First.",
      .default (.string "Ada"), .message "Short.", .emailAddress, .rule ⟨"isEmail", none⟩,
      .default (.string "Bea")]
    let steps' : List (Step Id) := [.default (.string "Bea"), short, .message "Short.",
      .emailAddress, .rule ⟨"isEmail", none⟩, .optional]
    let s : Schema Id := string
    s.Fresh ∧
      (s.applyAll steps).base = ⟨true, false, some (.string "Bea"), .empty,
        [⟨"minimumLength", .limit (.minimumLength 3), some "Short.", none⟩,
          ⟨"emailAddress", .emailAddress, none, some ⟨"isEmail", none⟩⟩]⟩ ∧
      (s.applyAll steps).base = (s.applyAll steps.tail).base ∧
      (s.applyAll (.optional :: short :: steps)).base =
        (s.applyAll (short :: .optional :: steps)).base ∧
      ∀ v path, (s.applyAll steps).validateAt v path =
        (s.applyAll steps').validateAt v path := by
  intro short steps steps' s
  have hs : s.Fresh := .scalar .string
  obtain ⟨hb, hl, hc, hv⟩ := applyAll_fresh hs
  exact ⟨hs, hb steps, hl [] steps.tail (.message "Lost.") (List.forall_mem_nil _) (.inl rfl),
    hc [] steps .optional short rfl (.inl rfl), hv steps steps' rfl rfl⟩

end Schema

end Intake
