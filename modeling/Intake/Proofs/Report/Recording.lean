import Intake.Proofs.Report.Resolution
import Intake.Proofs.Sequencing
import Intake.Report.Errors

/-! Reports by the steps that they come about in. -/

namespace Intake

inductive Recording where
  | valid (value : Option Json)
  | invalid (value : Option Json) (error : Finding)
  | pushError (before : Recording) (error : Finding)
  | pushSuccess (before : Recording) (success : Finding)
  | extendErrors (before : Recording) (errors : List Finding)
  | extendSuccesses (before : Recording) (successes : List Finding)
  | setValue (before : Recording) (value : Option Json)
  | absorb (before part : Recording)

namespace Recording

def report : Recording → Report
  | valid value => .valid value
  | invalid value error => .invalid value error
  | pushError r error => r.report.pushError error
  | pushSuccess r success => r.report.pushSuccess success
  | extendErrors r errors => r.report.extendErrors errors
  | extendSuccesses r successes => r.report.extendSuccesses successes
  | setValue r value => r.report.setValue value
  | absorb r part => (r.report.absorb part.report).2

def mark : Recording → Bool
  | valid _ => true
  | invalid _ _ | pushError _ _ => false
  | extendErrors r errors => errors.foldl (fun _ _ => false) r.mark
  | absorb r part => part.report.errors.foldl (fun _ _ => false) r.mark
  | pushSuccess r _ | extendSuccesses r _ | setValue r _ => r.mark

inductive Event where
  | error (f : Finding)
  | success (f : Finding)
  | value (v : Option Json)

namespace Event

def error? : Event → Option Finding
  | error f => some f
  | _ => none

def success? : Event → Option Finding
  | success f => some f
  | _ => none

def value? : Event → Option (Option Json)
  | value v => some v
  | _ => none

def isFinding : Event → Bool
  | error _ | success _ => true
  | value _ => false

end Event

def events : Recording → List Event
  | valid v => [.value v]
  | invalid v error => [.value v, .error error]
  | pushError r error => r.events ++ [.error error]
  | pushSuccess r success => r.events ++ [.success success]
  | extendErrors r errors => r.events ++ errors.map .error
  | extendSuccesses r successes => r.events ++ successes.map .success
  | setValue r v => r.events ++ [.value v]
  | absorb r part => r.events ++ part.events.filter Event.isFinding

def found (events : List Event) : Outcome :=
  ⟨events.filterMap Event.error?, events.filterMap Event.success?⟩

lemma found_append (es es' : List Event) : found (es ++ es') = found es ++ found es' :=
  congrArg₂ Outcome.mk List.filterMap_append List.filterMap_append

lemma filterMap_isFinding {α : Type} {f : Event → Option α} (hf : ∀ v, f (.value v) = none)
    (es : List Event) : (es.filter Event.isFinding).filterMap f = es.filterMap f := by
  rw [List.filterMap_filter]
  apply List.filterMap_congr
  intro e _
  cases e with
  | value v => exact (hf v).symm
  | _ => rfl

lemma found_isFinding (es : List Event) : found (es.filter Event.isFinding) = found es :=
  congrArg₂ Outcome.mk (filterMap_isFinding (fun _ => rfl) es)
    (filterMap_isFinding (fun _ => rfl) es)

lemma found_errors (fs : List Finding) : found (fs.map .error) = ⟨fs, []⟩ := by
  have he : Event.error? ∘ Event.error = some := rfl
  have hs : Event.success? ∘ Event.error = fun _ => none := rfl
  rw [found, List.filterMap_map, List.filterMap_map, he, hs, List.filterMap_some,
    List.filterMap_none]

lemma found_successes (fs : List Finding) : found (fs.map .success) = ⟨[], fs⟩ := by
  have he : Event.error? ∘ Event.success = fun _ => none := rfl
  have hs : Event.success? ∘ Event.success = some := rfl
  rw [found, List.filterMap_map, List.filterMap_map, he, hs, List.filterMap_some,
    List.filterMap_none]

theorem toOutcome_report (R : Recording) : R.report.toOutcome = found R.events := by
  induction R with
  | valid v => rfl
  | invalid v error => rfl
  | pushError r error ih =>
    rw [events, found_append, ← ih]
    exact congrArg₂ Outcome.mk rfl (List.append_nil _).symm
  | pushSuccess r success ih =>
    rw [events, found_append, ← ih]
    exact congrArg₂ Outcome.mk (List.append_nil _).symm rfl
  | extendErrors r errors ih =>
    rw [events, found_append, found_errors, ← ih, report, Report.toOutcome_extendErrors]
    exact congrArg (Outcome.mk _) (List.append_nil _).symm
  | extendSuccesses r successes ih =>
    rw [events, found_append, found_successes, ← ih]
    exact congrArg (Outcome.mk · _) (List.append_nil _).symm
  | setValue r v ih =>
    rw [events, found_append, ← ih]
    exact (Outcome.append_pass _).symm
  | absorb r part ih ihp =>
    rw [events, found_append, found_isFinding, ← ih, ← ihp]
    exact r.report.toOutcome_extend part.report.toOutcome

lemma getLast?_values_append {es es' : List Event} (h : ∀ e ∈ es', e.isFinding = true) :
    ((es ++ es').filterMap Event.value?).getLast? = (es.filterMap Event.value?).getLast? := by
  have hn : es'.filterMap Event.value? = [] := by
    rw [List.filterMap_eq_nil_iff]
    intro e he
    cases e with
    | value v => exact absurd (h _ he) Bool.false_ne_true
    | _ => rfl
  rw [List.filterMap_append, hn, List.append_nil]

theorem value_report (R : Recording) :
    (R.events.filterMap Event.value?).getLast? = some R.report.value := by
  induction R with
  | valid v => rfl
  | invalid v error => rfl
  | setValue r v ih =>
    rw [events, List.filterMap_append]
    exact List.getLast?_concat
  | pushError r error ih | pushSuccess r success ih =>
    refine (getLast?_values_append fun e he => ?_).trans ih
    rw [List.mem_singleton.1 he]
    rfl
  | extendErrors r fs ih =>
    rw [report, Report.value_extendErrors]
    refine (getLast?_values_append fun e he => ?_).trans ih
    obtain ⟨f, _, rfl⟩ := List.mem_map.1 he
    rfl
  | extendSuccesses r fs ih =>
    refine (getLast?_values_append fun e he => ?_).trans ih
    obtain ⟨f, _, rfl⟩ := List.mem_map.1 he
    rfl
  | absorb r part ih =>
    rw [report, Report.absorb, Report.value_extend]
    refine (getLast?_values_append fun e he => ?_).trans ih
    exact (List.mem_filter.1 he).2

theorem mark_eq (R : Recording) : R.mark = R.report.isValid := by
  induction R with
  | valid v => rfl
  | invalid v error => rfl
  | pushError r error ih => rfl
  | pushSuccess r success ih => exact ih
  | setValue r v ih => exact ih
  | extendErrors r errors ih =>
    rw [mark, ih]
    exact (r.report.isValid_extendErrors errors).symm
  | extendSuccesses r successes ih => exact ih
  | absorb r part ih =>
    rw [mark, ih]
    exact (r.report.isValid_extendErrors part.report.errors).symm

end Recording

lemma firstErrors_eq_nil {errors : List Finding} : firstErrors errors = [] ↔ errors = [] := by
  rw [← List.length_eq_zero_iff, length_firstErrors, Finset.card_eq_zero,
    List.toFinset_eq_empty_iff, List.map_eq_nil_iff]

namespace Report

lemma isValid_resolution (r : Report) : r.resolution.isValid = r.isValid := by
  cases hr : r.isValid with
  | true =>
    rw [resolution, if_pos hr]
    rfl
  | false =>
    have hn : firstErrors r.errors ≠ [] := by
      rw [ne_eq, firstErrors_eq_nil, ← isValid_iff, hr]
      exact Bool.false_ne_true
    rw [Resolution.isValid, errors_resolution hr]
    exact List.isEmpty_eq_false_iff.2 hn

structure ViewsAgree (r : Report) : Prop where
  verdict_iff : r.isValid = true ↔ ∃ value, r.verdict = .accepted value
  toExcept_iff : r.isValid = true ↔ ∃ value, r.toExcept = .ok value
  resolution_iff : r.isValid = true ↔ r.resolution.isValid = true
  accepted : ∀ value, r.verdict = .accepted value → value = r.value
  rejected : ∀ errors, r.verdict = .rejected errors → errors.toList = r.errors
  ok : ∀ value, r.toExcept = .ok value → value = r.value
  error : ∀ errors, r.toExcept = .error errors → errors.toList = r.errors

lemma viewsAgree_of_nil {r : Report} (hr : r.errors = []) : r.ViewsAgree := by
  have hv : r.isValid = true := r.isValid_iff.2 hr
  have ha : r.verdict = .accepted r.value := by
    rw [verdict, hr]
    rfl
  have ho : r.toExcept = .ok r.value := by
    rw [toExcept, ha]
    rfl
  constructor
  · exact iff_of_true hv ⟨_, ha⟩
  · exact iff_of_true hv ⟨_, ho⟩
  · rw [isValid_resolution]
  · intro value h
    rw [ha] at h
    cases h
    rfl
  · intro errors h
    rw [ha] at h
    cases h
  · intro value h
    rw [ho] at h
    cases h
    rfl
  · intro errors h
    rw [ho] at h
    cases h

lemma viewsAgree_of_cons {r : Report} {first : Finding} {rest : List Finding}
    (hr : r.errors = first :: rest) : r.ViewsAgree := by
  have hv : ¬ r.isValid = true := by
    rw [isValid_iff, hr]
    exact List.cons_ne_nil _ _
  have ha : r.verdict = .rejected ⟨first, rest⟩ := by
    rw [verdict, hr]
    rfl
  have ho : r.toExcept = .error ⟨first, rest⟩ := by
    rw [toExcept, ha]
    rfl
  constructor
  · refine iff_of_false hv ?_
    rintro ⟨value, h⟩
    rw [ha] at h
    cases h
  · refine iff_of_false hv ?_
    rintro ⟨value, h⟩
    rw [ho] at h
    cases h
  · rw [isValid_resolution]
  · intro value h
    rw [ha] at h
    cases h
  · intro errors h
    rw [ha] at h
    cases h
    exact hr.symm
  · intro value h
    rw [ho] at h
    cases h
  · intro errors h
    rw [ho] at h
    cases h
    exact hr.symm

theorem viewsAgree (r : Report) : r.ViewsAgree := by
  cases hr : r.errors with
  | nil => exact viewsAgree_of_nil hr
  | cons first rest => exact viewsAgree_of_cons hr

end Report

end Intake
