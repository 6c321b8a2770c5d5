import Intake.Proofs.Metadata.Interpretation
import Intake.Proofs.Schema.Excerpts

namespace Intake

variable {m : Type → Type}

namespace Path

lemma field_encloses_field_iff (path : Path) (name name' : String) :
    (path.field name).Encloses (path.field name') ↔ name = name' := by
  apply (encloses_append_iff path ⟨[.field name]⟩ ⟨[.field name']⟩).trans
  simp [Encloses]

lemma any_encloses_field (path : Path) (names : List String) (name : String) :
    (names.any fun n => (path.field n).Encloses (path.field name)) = names.contains name := by
  simp only [field_encloses_field_iff, List.contains_eq_any_beq]
  congr 1
  funext n
  exact decide_eq_decide.2 eq_comm

end Path

namespace RuleDescriptor

lemma liesAt_bound (r : RuleDescriptor) (c : Nat → Constraint) (bound : Option Nat) (v : Json)
    (path : Path) : (bound.elim .pass fun n => r.limited (c n) v path).LiesAt path := by
  cases bound with
  | none => exact Outcome.liesAt_pass path
  | some n =>
    rw [Option.elim_some, limited]
    split
    · exact Outcome.liesAt_pass path
    · exact Outcome.liesAt_fail _

lemma liesAt_judge (r : RuleDescriptor) (s : String) (path : Path) :
    (r.judge s path).LiesAt path := by
  rw [judge]
  split
  · rw [atMost_eq]
    exact r.liesAt_bound _ _ _ path
  · rw [atLeast_eq]
    exact r.liesAt_bound _ _ _ path
  · rw [atLeast_eq, atMost_eq]
    exact (r.liesAt_bound _ _ _ path).append (r.liesAt_bound _ _ _ path)
  · split_ifs
    · exact Outcome.liesAt_pass path
    · exact Outcome.liesAt_succeed _
    · exact Outcome.liesAt_fail _
  · split_ifs
    · exact Outcome.liesAt_fail _
    · exact Outcome.liesAt_pass path
  · exact Outcome.liesAt_pass path

end RuleDescriptor

namespace FieldDescriptor

lemma liesAt_judge (f : FieldDescriptor) (v : Json) (path : Path) :
    (f.judge v path).LiesAt path := by
  cases v with
  | string s =>
    apply Outcome.LiesAt.join
    intro o ho
    obtain ⟨r, _, rfl⟩ := List.mem_map.1 ho
    exact r.liesAt_judge s path
  | _ => exact Outcome.liesAt_pass path

lemma liesAt_interpret (f : FieldDescriptor) (v : Option Json) (path : Path) :
    (f.interpret v path).LiesAt path := by
  rw [interpret.eq_def]
  split
  · split
    · exact Outcome.liesAt_fail _
    · exact Outcome.liesAt_pass path
  · split
    · exact Outcome.liesAt_fail _
    · exact Outcome.liesAt_pass path
  · split
    · exact Outcome.liesAt_fail _
    · split
      · exact Outcome.liesAt_fail _
      · exact f.liesAt_judge _ path

end FieldDescriptor

def Report.restricted (r : Report) (path : Path) (names : List String) : Report :=
  .ofOutcome (r.toOutcome.kept fun p => names.any fun name => (path.field name).Encloses p)
    (r.value.map fun v => .object (v.entries.filter fun x => names.contains x.1))

namespace Schema

lemma validateAt_not_object [Monad m] (base : Base m) (fields fields' : List (String × Schema m))
    {v : Option Json} (hv : ∀ entries, v ≠ some (.object entries)) (path : Path) :
    (object base fields).validateAt v path = (object base fields').validateAt v path := by
  rw [validateAt, validateAt, Base.enter, Base.enter]
  cases ha : base.admission .object v with
  | admitted w =>
    obtain ⟨rfl, entries, rfl⟩ := Base.admission_object ha
    exact absurd rfl (hv entries)
  | _ => rfl

end Schema

namespace InputType

lemma restricted_report (fields : List FieldDescriptor) (entries : List (String × Json))
    (path : Path) (names : List String) :
    (report fields entries path).restricted path names =
      report (fields.filter fun f => names.contains f.name) entries path := by
  have ho := Outcome.kept_join_map
    (fun f : FieldDescriptor => f.liesAt_interpret (entries.lookup f.name) (path.field f.name))
    (fun p => names.any fun name => (path.field name).Encloses p) fields
  simp only [Path.any_encloses_field] at ho
  have hv : (fields.filterMap fun f => (entries.lookup f.name).map (f.name, ·)).filter
      (fun x => names.contains x.1) =
        (fields.filter fun f => names.contains f.name).filterMap fun f =>
          (entries.lookup f.name).map (f.name, ·) := by
    rw [List.filter_filterMap, List.filterMap_filter]
    apply List.filterMap_congr
    intro f _
    cases entries.lookup f.name with
    | none => simp
    | some x => by_cases hm : f.name ∈ names <;> simp [hm, Option.filter]
  exact Report.ext ho (congrArg (fun xs => some (Json.object xs)) hv)

lemma compileSelected_eq (t : InputType) (names : List String) :
    (t.compileSelected (some names) : Schema m) =
      .object .empty ((t.compile : Schema m).fields.filter fun x => names.contains x.1) := by
  rw [compile, compileSelected_eq_assignAll, compileSelected_eq_assignAll, Schema.fields,
    filter_assignAll]
  rfl

variable [Monad m] [LawfulMonad m]

theorem validateAt_compileSelected (t : InputType) (names : List String) :
    (t.compileSelected (some names) : Schema m) =
      .object .empty ((t.compile : Schema m).fields.filter fun x => names.contains x.1) ∧
    (∀ entries path,
      (t.compileSelected (some names) : Schema m).validateAt (some (.object entries)) path =
        (·.restricted path names) <$>
          (t.compile : Schema m).validateAt (some (.object entries)) path) ∧
    ∀ v path, (∀ entries, v ≠ some (.object entries)) →
      (t.compileSelected (some names) : Schema m).validateAt v path =
        (t.compile : Schema m).validateAt v path := by
  have hf : (t.compile : Schema m).fields.filter (fun x => names.contains x.1) =
      (t.declared.filter fun f => names.contains f.name).map fun f => (f.name, f.schema) := by
    rw [compile_eq, Schema.fields, List.filter_map]
    rfl
  refine ⟨compileSelected_eq t names, fun entries path => ?_, fun v path hv => ?_⟩
  · rw [compileSelected_eq, hf, compile_eq, validateAt_fields, validateAt_fields, map_pure,
      restricted_report]
  · rw [compileSelected_eq, compile_eq]
    exact Schema.validateAt_not_object _ _ _ hv path

theorem validateAt_compileSelected_post :
    let five := Json.number (.whole ⟨5, by decide, by decide⟩)
    let rule : RuleDescriptor := ⟨"maxLength", some [five]⟩
    let draft : FieldDescriptor := ⟨"title", .scalar, false, some (.named "String"), []⟩
    let title := { draft with required := true, validation := [rule] }
    let rating : FieldDescriptor := ⟨"rating", .scalar, false, some (.named "Int"), []⟩
    let t : InputType := ⟨[draft, rating, title]⟩
    let entries := [("rating", Json.string "high"), ("title", .string "Too long")]
    let names := ["author", "title", "title"]
    let s : Schema Id := t.compileSelected (some names)
    let r : Report := s.validateAt (some (.object entries)) .root
    LawfulMonad Id ∧ s.fields.map Prod.fst = ["title"] ∧
      r = Report.restricted ((t.compile : Schema Id).validateAt (some (.object entries)) .root)
        .root names ∧
      r.errors = [rule.finding (Path.root.field "title") "tooLong"
        "Must be at most 5 characters."] ∧
      (∀ entries, some Json.null ≠ some (.object entries)) ∧
      s.validateAt (some .null) .root = (t.compile : Schema Id).validateAt (some .null) .root := by
  intro five rule draft title rating t entries names s r
  obtain ⟨-, ho, hn⟩ := validateAt_compileSelected (m := Id) t names
  have hv : ∀ entries, some Json.null ≠ some (.object entries) := nofun
  exact ⟨inferInstance, rfl, ho entries .root, rfl, hv, hn (some .null) .root hv⟩

end InputType

end Intake
