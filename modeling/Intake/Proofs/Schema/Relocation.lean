import Intake.Proofs.Schema.Conformance
import Intake.Proofs.Schema.Traversal

namespace Intake

def Finding.under (p : Path) (f : Finding) : Finding := { f with path := p ++ f.path }

def Outcome.under (p : Path) (o : Outcome) : Outcome :=
  ⟨o.errors.map (Finding.under p), o.successes.map (Finding.under p)⟩

def Report.under (p : Path) (r : Report) : Report := .ofOutcome (r.toOutcome.under p) r.value

@[simp] lemma Report.isValid_under (p : Path) (r : Report) : (r.under p).isValid = r.isValid :=
  List.isEmpty_map.trans r.isValid_eq.symm

namespace Path

lemma append_assoc (p q r : Path) : p ++ q ++ r = p ++ (q ++ r) :=
  congrArg mk (List.append_assoc ..)

lemma append_step (p q : Path) (segment : Segment) : p ++ q.step segment = (p ++ q).step segment :=
  congrArg mk (List.append_assoc ..).symm

end Path

namespace Outcome

@[simp] lemma under_pass (p : Path) : pass.under p = pass := rfl

@[simp] lemma under_fail (p : Path) (f : Finding) : (fail f).under p = fail (f.under p) := rfl

@[simp] lemma under_succeed (p : Path) (f : Finding) : (succeed f).under p = succeed (f.under p) :=
  rfl

lemma under_under (p q : Path) (o : Outcome) : (o.under q).under p = o.under (p ++ q) := by
  have hf : Finding.under p ∘ Finding.under q = Finding.under (p ++ q) :=
    funext fun f => congrArg (Finding.mk · _ _ _) (Path.append_assoc p q f.path).symm
  simp only [under, List.map_map, hf]

lemma under_join (p : Path) (os : List Outcome) : (join os).under p = join (os.map (under p)) := by
  simp only [under, join, List.map_flatMap, List.flatMap_map]

end Outcome

lemma Refusal.under_finding (why : Refusal) (p q : Path) :
    (why.finding q).under p = why.finding (p ++ q) := rfl

variable {m : Type → Type}

lemma Registration.under_present (r : Registration m) (p : Path) (o : Outcome) :
    (r.present o).under p = r.present (o.under p) := by
  simp only [present, Outcome.under, List.map_map]
  rfl

namespace Check

variable [Monad m]

def Relative (c : Check m) : Prop :=
  ∃ find : Json → m Outcome, ∀ v path, c.run v path = Outcome.under path <$> find v

variable [LawfulMonad m]

lemma relative_limit (c : Constraint) : (limit c : Check m).Relative := by
  refine ⟨fun v => pure (c.outcome v .root), fun v path => ?_⟩
  rw [map_pure, run, Constraint.outcome, Constraint.outcome]
  split
  · rfl
  · rw [Outcome.under_fail, Finding.under, Path.append_root]

lemma relative_emailAddress : (emailAddress : Check m).Relative := by
  refine ⟨fun v => pure (emailOutcome v.text .root), fun v path => ?_⟩
  rw [map_pure, run, emailOutcome, emailOutcome]
  split_ifs
  · rfl
  · rw [Outcome.under_succeed, Finding.under, Path.append_root]
  · rw [Outcome.under_fail, Finding.under, Path.append_root]

lemma under_answer (a : Answer) (p : Path) : (a.outcome .root).under p = a.outcome p := by
  cases a with
  | error e => simp [Answer.outcome, Finding.under]
  | ok a => cases a <;> simp [Answer.outcome, Availability.outcome, Finding.under]

lemma relative_remote (ask : Json → m Answer) : (remote ask).Relative := by
  refine ⟨fun v => (fun a => Answer.outcome a .root) <$> ask v, fun v path => ?_⟩
  simp only [run, bind_pure_comp, Functor.map_map, under_answer]

lemma relative_of_builtIn {c : Check m} (hc : ∀ run, c ≠ custom run) : c.Relative := by
  cases c with
  | limit c => exact relative_limit c
  | emailAddress => exact relative_emailAddress
  | remote ask => exact relative_remote ask
  | custom run => exact absurd rfl (hc run)

lemma Relative.run_append {c : Check m} (hc : c.Relative) (v : Json) (p q : Path) :
    c.run v (p ++ q) = Outcome.under p <$> c.run v q := by
  obtain ⟨find, hf⟩ := hc
  simp only [hf, Functor.map_map, Outcome.under_under]

end Check

namespace Schema

variable [Monad m]

def Relative (s : Schema m) : Prop := s.All fun t => ∀ r ∈ t.base.registrations, r.check.Relative

lemma Relative.register {s : Schema m} (hs : s.Relative) (identifier : String) {c : Check m}
    (hc : c.Relative) : (s.register identifier c).Relative := by
  apply all_modifyBase _ hs
  intro t ht r hr
  rw [base_modifyBase] at hr
  rcases List.mem_append.1 hr with hr | hr
  · exact ht r hr
  · obtain rfl := List.mem_singleton.1 hr
    exact hc

variable [LawfulMonad m]

lemma own_append {s : Schema m} (hs : ∀ r ∈ s.base.registrations, r.check.Relative)
    (v : Option Json) (p q : Path) : s.own v (p ++ q) = Outcome.under p <$> s.own v q := by
  have hr (w : Json) (r : Registration m) (h : r ∈ s.base.registrations) :
      r.present <$> r.check.run w (p ++ q) = Outcome.under p <$> r.present <$> r.check.run w q := by
    rw [(hs r h).run_append, Functor.map_map, Functor.map_map]
    simp only [Registration.under_present]
  rw [own, own]
  cases s.admission v with
  | exempt => simp
  | refused why => simp [Refusal.under_finding]
  | admitted w =>
    simp only [ownChecks]
    rw [mapM_congr (hr _), mapM_functor_map]
    simp only [Functor.map_map, Outcome.under_join]

lemma ownAt_append_path {s : Schema m} (hr : s.Relative) (v : Option Json) (p q place : Path) :
    s.ownAt v (p ++ q) place = Outcome.under p <$> s.ownAt v q place := by
  rw [ownAt, ownAt]
  cases ht : s.at? place.segments with
  | none => simp
  | some t =>
    simp only [Path.append_assoc]
    exact own_append (hr.at? ht).node _ _ _

lemma validateAt_under {s : Schema m} (hs : s.Standard) (hr : s.Relative) (v : Option Json)
    (p q : Path) : s.validateAt v (p ++ q) = Report.under p <$> s.validateAt v q := by
  rw [validateAt_eq_mapM hs, validateAt_eq_mapM hs,
    mapM_congr fun place _ => ownAt_append_path hr v p q place, mapM_functor_map]
  simp [Report.under, Outcome.under_join]

lemma BuiltIn.relative {s : Schema m} (hs : s.BuiltIn) : s.Relative := by
  apply hs.all_checks
  intro c kind hc
  apply Check.relative_of_builtIn
  rintro run rfl
  exact hc

theorem validateAt_relocates {s : Schema m} (hs : s.Standard) (hr : s.Relative) (v : Option Json)
    (p q : Path) :
    s.validateAt v (p ++ q) = Report.under p <$> s.validateAt v q ∧
      (∀ r : Report, (r.under p).isValid = r.isValid) ∧
      (∀ w, ∀ b ∈ s.branches w, b.schema.validateAt b.input ((p ++ q).step b.segment) =
        Report.under p <$> b.schema.validateAt b.input (q.step b.segment)) ∧
      ∀ c : Check m, (∀ run, c ≠ .custom run) → c.Relative := by
  refine ⟨validateAt_under hs hr v p q, Report.isValid_under p, fun w b hb => ?_,
    fun c => Check.relative_of_builtIn⟩
  rw [← Path.append_step]
  exact validateAt_under (hs.branch hb) (hr.branch hb) _ _ _

theorem validateAt_relocates_signUp :
    let named : Check Id := .custom fun v path =>
      if (v.get? "name").isSome then .pass else .fail ⟨path.field "name", "unnamed", "", none⟩
    let s := signUp.register "named" named
    let v := some (Json.object [("emails", .array [.string "ada@home", .null]), ("note", .null)])
    let p := (Path.root.field "accounts").index 3
    let q := Path.root.field "owner"
    s.Standard ∧ s.Relative ∧ s.validateAt v (p ++ q) = Report.under p (s.validateAt v q) ∧
      (s.validateAt v (p ++ q)).errors.getLast?.map (·.path.display) =
        some "accounts[3].owner.name" := by
  intro named s v p q
  have hc : named.Relative := by
    refine ⟨fun v => if (v.get? "name").isSome then .pass else
      .fail ⟨Path.root.field "name", "unnamed", "", none⟩, fun v path => ?_⟩
    simp only [named, Check.run]
    split <;> rfl
  have hs : s.Standard := all_modifyBase (proper_modifyBase _) standard_signUp
  have hr : s.Relative := builtIn_signUp.relative.register "named" hc
  obtain ⟨h, -⟩ := validateAt_relocates hs hr v p q
  exact ⟨hs, hr, h, rfl⟩

end Schema

end Intake
