import Intake.Report.Finding

namespace Intake

structure Report extends Outcome where
  value : Option Json
  isValid : Bool
  isValid_eq : isValid = errors.isEmpty

namespace Report

def valid (value : Option Json) : Report := ⟨.pass, value, true, rfl⟩

def invalid (value : Option Json) (error : Finding) : Report := ⟨.fail error, value, false, rfl⟩

def pushError (r : Report) (error : Finding) : Report where
  toOutcome := r.toOutcome.withError error
  value := r.value
  isValid := false
  isValid_eq := by simp [Outcome.withError]

def pushSuccess (r : Report) (success : Finding) : Report :=
  { r with toOutcome := r.toOutcome.withSuccess success }

def extendErrors (r : Report) (errors : List Finding) : Report := errors.foldl pushError r

def extendSuccesses (r : Report) (successes : List Finding) : Report :=
  { r with successes := r.successes ++ successes }

def extend (r : Report) (o : Outcome) : Report :=
  (r.extendErrors o.errors).extendSuccesses o.successes

def setValue (r : Report) (value : Option Json) : Report := { r with value }

def absorb (r part : Report) : Option Json × Report := (part.value, r.extend part.toOutcome)

def errorsAt (r : Report) (path : Path) : List Finding := r.errors.filter (·.path = path)

theorem isValid_iff (r : Report) : r.isValid = true ↔ r.errors = [] := by
  rw [r.isValid_eq, List.isEmpty_iff]

@[ext] theorem ext {r r' : Report} (ho : r.toOutcome = r'.toOutcome) (hv : r.value = r'.value) :
    r = r' := by
  obtain ⟨o, v, b, hb⟩ := r
  obtain ⟨o', v', b', hb'⟩ := r'
  cases ho
  cases hv
  rw [Report.mk.injEq, hb, hb']
  exact ⟨rfl, rfl, rfl⟩

def ofOutcome (o : Outcome) (value : Option Json) : Report := ⟨o, value, o.errors.isEmpty, rfl⟩

@[simp] theorem toOutcome_ofOutcome (o : Outcome) (value : Option Json) :
    (ofOutcome o value).toOutcome = o := rfl

@[simp] theorem value_ofOutcome (o : Outcome) (value : Option Json) :
    (ofOutcome o value).value = value := rfl

@[simp] theorem ofOutcome_toOutcome (r : Report) : ofOutcome r.toOutcome r.value = r :=
  ext rfl rfl

theorem valid_eq (value : Option Json) : valid value = ofOutcome .pass value := rfl

theorem invalid_eq (value : Option Json) (error : Finding) :
    invalid value error = ofOutcome (.fail error) value := rfl

theorem toOutcome_extendErrors (r : Report) (errors : List Finding) :
    (r.extendErrors errors).toOutcome = ⟨r.errors ++ errors, r.successes⟩ := by
  induction errors generalizing r with
  | nil =>
    rw [List.append_nil]
    rfl
  | cons error rest ih =>
    refine (ih (r.pushError error)).trans (congrArg (Outcome.mk · r.successes) ?_)
    exact List.append_assoc r.errors [error] rest

@[simp] theorem value_extendErrors (r : Report) (errors : List Finding) :
    (r.extendErrors errors).value = r.value := by
  induction errors generalizing r with
  | nil => rfl
  | cons error rest ih => exact ih (r.pushError error)

theorem isValid_extendErrors (r : Report) (errors : List Finding) :
    (r.extendErrors errors).isValid = errors.foldl (fun _ _ => false) r.isValid := by
  induction errors generalizing r with
  | nil => rfl
  | cons error rest ih => exact ih (r.pushError error)

@[simp] theorem toOutcome_extend (r : Report) (o : Outcome) :
    (r.extend o).toOutcome = r.toOutcome ++ o :=
  congrArg (fun o' : Outcome => Outcome.mk o'.errors (o'.successes ++ o.successes))
    (r.toOutcome_extendErrors o.errors)

@[simp] theorem value_extend (r : Report) (o : Outcome) : (r.extend o).value = r.value :=
  r.value_extendErrors o.errors

@[simp] theorem errors_valid (value : Option Json) : (valid value).errors = [] := rfl

@[simp] theorem successes_valid (value : Option Json) : (valid value).successes = [] := rfl

@[simp] theorem errors_invalid (value : Option Json) (error : Finding) :
    (invalid value error).errors = [error] := rfl

@[simp] theorem successes_invalid (value : Option Json) (error : Finding) :
    (invalid value error).successes = [] := rfl

end Report

end Intake
