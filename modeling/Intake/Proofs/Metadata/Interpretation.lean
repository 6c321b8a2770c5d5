import Intake.Metadata.Compile
import Intake.Proofs.Schema.Branches
import Intake.Proofs.Schema.Steps

namespace Intake

namespace RuleDescriptor

def natural? (r : RuleDescriptor) (i : Nat) : Option Nat :=
  match (r.constraints.getD [])[i]? with
  | some (.number (.whole n)) => if 0 ≤ n.val then some n.val.toNat else none
  | _ => none

def finding (r : RuleDescriptor) (path : Path) (identifier message : String) : Finding :=
  ⟨path, identifier, message, some ⟨r.type, r.constraints⟩⟩

def atLeast (r : RuleDescriptor) (bound : Option Nat) (s : String) (path : Path) : Outcome :=
  match bound with
  | some n =>
    if unitLength s < n then
      .fail (r.finding path "tooShort" ("Must be at least " ++ toString n ++ " characters."))
    else .pass
  | none => .pass

def atMost (r : RuleDescriptor) (bound : Option Nat) (s : String) (path : Path) : Outcome :=
  match bound with
  | some n =>
    if n < unitLength s then
      .fail (r.finding path "tooLong" ("Must be at most " ++ toString n ++ " characters."))
    else .pass
  | none => .pass

def judge (r : RuleDescriptor) (s : String) (path : Path) : Outcome :=
  match r.type with
  | "maxLength" => r.atMost (r.natural? 0) s path
  | "minLength" => r.atLeast (r.natural? 0) s path
  | "isLength" => r.atLeast (r.natural? 0) s path ++ r.atMost (r.natural? 1) s path
  | "isEmail" =>
    if s = "" then .pass
    else if isEmailAddress s.toList then
      .succeed (r.finding path "validEmailAddress" "Valid email address.")
    else .fail (r.finding path "invalidEmailAddress" "Invalid email address.")
  | "isNotEmpty" => if s = "" then .fail (r.finding path "empty" "Must not be empty.") else .pass
  | _ => .pass

end RuleDescriptor

namespace FieldDescriptor

def expected (f : FieldDescriptor) : String :=
  if f.kind = .scalar then
    match f.type.map FieldType.name with
    | some "Int" | some "Float" => "number"
    | some "Boolean" => "boolean"
    | _ => "string"
  else "string"

def judge (f : FieldDescriptor) (v : Json) (path : Path) : Outcome :=
  match v with
  | .string s => .join (f.validation.map fun r => r.judge s path)
  | _ => .pass

def interpret (f : FieldDescriptor) (v : Option Json) (path : Path) : Outcome :=
  match v with
  | none | some .null =>
    if f.required then .fail ⟨path, "required", "Required.", none⟩ else .pass
  | some v =>
    if f.required ∧ v.isEmptyText then .fail ⟨path, "required", "Required.", none⟩
    else if v.typeName ≠ f.expected then
      .fail ⟨path, "invalidType", "Expected " ++ f.expected ++ ", received " ++ v.typeName, none⟩
    else f.judge v path

end FieldDescriptor

namespace InputType

def declared (t : InputType) : List FieldDescriptor :=
  (t.fields.map (·.name)).eraseDups.filterMap fun name => t.fields.reverse.find? (·.name = name)

def report (fields : List FieldDescriptor) (entries : List (String × Json)) (path : Path) :
    Report :=
  .ofOutcome (.join (fields.map fun f => f.interpret (entries.lookup f.name) (path.field f.name)))
    (some (.object (fields.filterMap fun f => (entries.lookup f.name).map (f.name, ·))))

def interpret (t : InputType) (v : Option Json) (path : Path) : Report :=
  match v with
  | some (.object entries) => report t.declared entries path
  | none => .invalid none ⟨path, "required", "Required.", none⟩
  | some v =>
    if v.isNull ∨ v.isEmptyText then .invalid (some v) ⟨path, "required", "Required.", none⟩
    else .invalid (some v)
      ⟨path, "invalidType", "Expected object, received " ++ v.typeName, none⟩

end InputType

variable {m : Type → Type}

lemma Whole.map_toUInt64? (n : Whole) :
    n.toUInt64?.map UInt64.toNat = if 0 ≤ n.val then some n.val.toNat else none := by
  rw [toUInt64?]
  split
  · have hu := n.upper
    have hn : n.val.toNat < 2 ^ 64 := by omega
    rw [Option.map_some, UInt64.toNat_ofNat_of_lt' hn]
  · rfl

namespace RuleDescriptor

lemma bound?_eq (r : RuleDescriptor) (i : Nat) : r.bound? i = r.natural? i := by
  have hc : r.constraints.bind (·[i]?) = (r.constraints.getD [])[i]? := by
    cases r.constraints <;> rfl
  rw [bound?, natural?, hc]
  cases (r.constraints.getD [])[i]? with
  | none => rfl
  | some v =>
    cases v with
    | number x =>
      cases x with
      | whole n => exact n.map_toUInt64?
      | double x => rfl
    | _ => rfl

def registrations (r : RuleDescriptor) : List (Registration m) :=
  r.checks.map fun c => ⟨c.1, c.2, none, some r.reference⟩

lemma addTo_scalar (kind : ScalarKind) (b : Base m) (r : RuleDescriptor) :
    addTo (.scalar kind b) r =
      .scalar kind { b with registrations := b.registrations ++ r.registrations } := by
  rw [addTo, registrations]
  generalize r.checks = cs
  induction cs generalizing b with
  | nil => simp
  | cons c rest ih =>
    obtain ⟨identifier, check⟩ := c
    -- a reference goes to the check registered last, and that is the one just added
    have hc : ((Schema.scalar kind b).register identifier check).rule r.reference =
        .scalar kind { b with registrations :=
          b.registrations ++ [⟨identifier, check, none, some r.reference⟩] } := by
      simp only [Schema.register, Schema.rule, Schema.modifyBase, Base.register, Base.setRule,
        Base.modifyLast, modifyLast_concat]
    simp only [List.foldl_cons, hc, ih, List.append_assoc]
    rfl

lemma foldl_addTo (kind : ScalarKind) (b : Base m) (rules : List RuleDescriptor) :
    rules.foldl addTo (.scalar kind b) =
      .scalar kind { b with registrations := b.registrations ++ rules.flatMap registrations } := by
  induction rules generalizing b with
  | nil => simp
  | cons r rest ih => rw [List.foldl_cons, addTo_scalar, ih, List.append_assoc, List.flatMap_cons]

def limited (r : RuleDescriptor) (c : Constraint) (v : Json) (path : Path) : Outcome :=
  if c.accepts v then .pass else .fail (r.finding path c.errorIdentifier c.errorMessage)

lemma limited_eq {P : Prop} [Decidable P] (r : RuleDescriptor) {c : Constraint} {v : Json}
    (h : c.accepts v = true ↔ ¬ P) (path : Path) :
    r.limited c v path =
      if P then .fail (r.finding path c.errorIdentifier c.errorMessage) else .pass := by
  rw [limited]
  by_cases hp : P
  · rw [if_neg (mt h.1 (not_not_intro hp)), if_pos hp]
  · rw [if_pos (h.2 hp), if_neg hp]

lemma atLeast_eq (r : RuleDescriptor) (bound : Option Nat) (s : String) (path : Path) :
    r.atLeast bound s path =
      bound.elim .pass fun n => r.limited (.minimumLength n) (.string s) path := by
  cases bound with
  | none => rfl
  | some n =>
    have ha : (Constraint.minimumLength n).accepts (.string s) = true ↔ ¬ unitLength s < n :=
      decide_eq_true_iff.trans Nat.not_lt.symm
    exact (r.limited_eq ha path).symm

lemma atMost_eq (r : RuleDescriptor) (bound : Option Nat) (s : String) (path : Path) :
    r.atMost bound s path =
      bound.elim .pass fun n => r.limited (.maximumLength n) (.string s) path := by
  cases bound with
  | none => rfl
  | some n =>
    have ha : (Constraint.maximumLength n).accepts (.string s) = true ↔ ¬ n < unitLength s :=
      decide_eq_true_iff.trans Nat.not_lt.symm
    exact (r.limited_eq ha path).symm

variable [Monad m] [LawfulMonad m]

lemma runAll_limit (r : RuleDescriptor) (c : Constraint) (v : Json) (path : Path) :
    Registration.runAll (m := m) [⟨c.name, .limit c, none, some r.reference⟩] v path =
      pure (r.limited c v path) := by
  have hp : Registration.present (m := m) ⟨c.name, .limit c, none, some r.reference⟩
      (c.outcome v path) = r.limited c v path := by
    rw [Constraint.outcome, limited]
    split <;> rfl
  rw [← hp]
  exact Registration.runAll_single _ rfl

lemma runAll_bound (r : RuleDescriptor) (c : Nat → Constraint) (bound : Option Nat) (v : Json)
    (path : Path) :
    Registration.runAll (m := m) ((bound.map fun n =>
        ((c n).name, Check.limit (c n))).toList.map fun x => ⟨x.1, x.2, none, some r.reference⟩)
      v path = pure (bound.elim .pass fun n => r.limited (c n) v path) := by
  cases bound with
  | none => rfl
  | some n => exact runAll_limit r (c n) v path

lemma runAll_emailAddress (r : RuleDescriptor) (s : String) (path : Path) :
    Registration.runAll (m := m) [⟨"emailAddress", .emailAddress, none, some r.reference⟩]
        (.string s) path =
      pure (if s = "" then .pass
        else if isEmailAddress s.toList then
          .succeed (r.finding path "validEmailAddress" "Valid email address.")
        else .fail (r.finding path "invalidEmailAddress" "Invalid email address.")) := by
  refine (Registration.runAll_single _ (o := emailOutcome s path) rfl).trans ?_
  rw [emailOutcome]
  split_ifs <;> rfl

lemma runAll_registrations (r : RuleDescriptor) (s : String) (path : Path) :
    Registration.runAll (m := m) r.registrations (.string s) path = pure (r.judge s path) := by
  rw [registrations, checks]
  split
  · rename_i ht
    simp only [judge, ht, bound?_eq, atMost_eq]
    exact runAll_bound r .maximumLength _ _ path
  · rename_i ht
    simp only [judge, ht, bound?_eq, atLeast_eq]
    exact runAll_bound r .minimumLength _ _ path
  · rename_i ht
    have hl := runAll_bound (m := m) r .minimumLength (r.natural? 0) (.string s) path
    have hu := runAll_bound (m := m) r .maximumLength (r.natural? 1) (.string s) path
    simp only [judge, ht, bound?_eq, atLeast_eq, atMost_eq, List.map_append]
    exact Registration.runAll_append hl hu
  · rename_i ht
    simp only [judge, ht]
    exact runAll_emailAddress r s path
  · rename_i ht
    have ha : Constraint.notEmpty.accepts (.string s) = true ↔ ¬ s = "" := decide_eq_true_iff
    simp only [judge, ht]
    exact (runAll_limit r .notEmpty (.string s) path).trans (congrArg pure (r.limited_eq ha path))
  · rename_i h₁ h₂ h₃ h₄ h₅
    rw [judge]
    split
    · exact absurd ‹_› h₁
    · exact absurd ‹_› h₂
    · exact absurd ‹_› h₃
    · exact absurd ‹_› h₄
    · exact absurd ‹_› h₅
    · rfl

lemma runAll_rules (rules : List RuleDescriptor) (s : String) (path : Path) :
    Registration.runAll (m := m) (rules.flatMap registrations) (.string s) path =
      pure (.join (rules.map fun r => r.judge s path)) := by
  induction rules with
  | nil => rfl
  | cons r rest ih => exact Registration.runAll_append (r.runAll_registrations s path) ih

end RuleDescriptor

namespace FieldDescriptor

lemma expected_eq (f : FieldDescriptor) : f.expected = (Kind.scalar f.valueKind).name := by
  rw [expected, valueKind]
  by_cases hk : f.kind = .scalar
  · rw [if_pos hk, hk]
    split
    · rename_i ht
      simp only [ht, Kind.name]
    · rename_i ht
      simp only [ht, Kind.name]
    · rename_i ht
      simp only [ht, Kind.name]
    · rename_i h₁ h₂ h₃
      split
      · exact absurd ‹_› h₁
      · exact absurd ‹_› h₂
      · exact absurd ‹_› h₃
      · rfl
  · rw [if_neg hk]
    split
    · exact absurd ‹_› hk
    · exact absurd ‹_› hk
    · exact absurd ‹_› hk
    · rfl

lemma valueKind_ne_file (f : FieldDescriptor) : f.valueKind ≠ .file := by
  rw [valueKind]
  split <;> exact ScalarKind.noConfusion

lemma accepts_iff (f : FieldDescriptor) (v : Json) :
    (Kind.scalar f.valueKind).accepts v = true ↔ v.typeName = f.expected := by
  rw [expected_eq]
  cases hk : f.valueKind with
  | file => exact absurd hk f.valueKind_ne_file
  | _ => cases v <;> simp [Kind.accepts, Json.typeName, Kind.name]

lemma schema_eq (f : FieldDescriptor) :
    (f.schema : Schema m) = .scalar f.valueKind ⟨!f.required, false, none, .empty,
      if f.valueKind = .string then f.validation.flatMap RuleDescriptor.registrations else []⟩ := by
  have hr : (if f.valueKind = .string then f.validation else []).flatMap
      (RuleDescriptor.registrations (m := m)) =
        if f.valueKind = .string then f.validation.flatMap RuleDescriptor.registrations
        else [] := by
    split <;> rfl
  rw [schema, RuleDescriptor.foldl_addTo, hr]
  cases f.required <;> rfl

lemma interpret_some (f : FieldDescriptor) {v : Json} (hn : v.isNull = false) (path : Path) :
    f.interpret (some v) path =
      if f.required ∧ v.isEmptyText then .fail (Refusal.required.finding path)
      else if v.typeName ≠ f.expected then .fail ((Refusal.ofKind f.expected v).finding path)
      else f.judge v path := by
  cases v with
  | null => cases hn
  | _ => rfl

lemma admission_some (f : FieldDescriptor) (rs : List (Registration m)) {v : Json}
    (hn : v.isNull = false) :
    (Base.mk (!f.required) false none .empty rs).admission (.scalar f.valueKind) (some v) =
      if f.required ∧ v.isEmptyText then .refused .required
      else if v.typeName ≠ f.expected then .refused (.ofKind f.expected v)
      else .admitted v := by
  have hk : v.typeName ≠ f.expected ↔ ¬(Kind.scalar f.valueKind).accepts v = true :=
    not_congr (f.accepts_iff v).symm
  simp only [Base.admission, hn, hk, ← expected_eq, Bool.not_not, Bool.and_eq_true, ite_not,
    and_comm, Bool.false_eq_true, if_false]

variable [Monad m] [LawfulMonad m]

lemma runAll_rules_of_accepts (f : FieldDescriptor) {v : Json} (path : Path)
    (hv : (Kind.scalar f.valueKind).accepts v = true) :
    Registration.runAll (m := m)
        (if f.valueKind = .string then f.validation.flatMap RuleDescriptor.registrations else [])
        v path = pure (f.judge v path) := by
  cases hk : f.valueKind with
  | file => exact absurd hk f.valueKind_ne_file
  | string =>
    obtain ⟨s, rfl⟩ := (Kind.accepts_iff _ _).1 (hk ▸ hv)
    exact RuleDescriptor.runAll_rules f.validation s path
  | number =>
    obtain ⟨n, rfl⟩ := (Kind.accepts_iff _ _).1 (hk ▸ hv)
    rfl
  | boolean =>
    obtain ⟨b, rfl⟩ := (Kind.accepts_iff _ _).1 (hk ▸ hv)
    rfl

lemma validateAt_schema (f : FieldDescriptor) (v : Option Json) (path : Path) :
    (f.schema : Schema m).validateAt v path = pure (.ofOutcome (f.interpret v path) v) := by
  rw [schema_eq, Schema.validateAt, Base.enter]
  cases v with
  | none => cases hr : f.required <;> simp [Base.admission, interpret, hr] <;> rfl
  | some v =>
    by_cases hn : v.isNull = true
    · obtain rfl := Json.isNull_iff.1 hn
      cases hr : f.required <;> simp [Base.admission, interpret, hr, Json.isNull] <;> rfl
    · rw [Bool.not_eq_true] at hn
      rw [admission_some f _ hn, interpret_some f hn]
      by_cases he : f.required ∧ v.isEmptyText
      · rw [if_pos he, if_pos he]
        rfl
      · rw [if_neg he, if_neg he]
        by_cases ht : v.typeName = f.expected
        · have hk := (f.accepts_iff v).2 ht
          rw [if_neg (not_not_intro ht), if_neg (not_not_intro ht)]
          exact Base.conclude_nil (runAll_rules_of_accepts f path hk)
        · rw [if_pos ht, if_pos ht]
          rfl

end FieldDescriptor

namespace InputType

lemma foldl_field (fields : List FieldDescriptor) (base : Base m)
    (entries : List (String × Schema m)) :
    fields.foldl (fun s f => s.field f.name f.schema) (Schema.object base entries) =
      .object base (fields.foldl (fun entries f => assign f.name f.schema entries) entries) := by
  induction fields generalizing entries with
  | nil => rfl
  | cons f rest ih => exact ih _

lemma compileSelected_eq_assignAll (t : InputType) (only : Option (List String)) :
    (t.compileSelected only : Schema m) =
      .object .empty (assignAll (·.name) (·.schema) (t.selected only)) :=
  foldl_field (t.selected only) .empty []

lemma compile_eq (t : InputType) :
    (t.compile : Schema m) = .object .empty (t.declared.map fun f => (f.name, f.schema)) := by
  rw [compile, compileSelected_eq_assignAll, selected, assignAll_eq, declared]

variable [Monad m] [LawfulMonad m]

lemma validateFields_declared (fields : List FieldDescriptor) (w : Json) (path : Path) :
    Schema.validateFields (m := m) (fields.map fun f => (f.name, f.schema)) w path =
      pure (fields.map fun f =>
        (f.name,
          .ofOutcome (f.interpret (w.get? f.name) (path.field f.name)) (w.get? f.name))) := by
  have hf (f : FieldDescriptor) :
      (f.name, ·) <$> (f.schema : Schema m).validateAt (w.get? f.name) (path.field f.name) =
        pure (f.name,
          .ofOutcome (f.interpret (w.get? f.name) (path.field f.name)) (w.get? f.name)) := by
    rw [f.validateAt_schema, map_pure]
  simp only [Schema.validateFields_eq, List.mapM_map, Function.comp_def, hf, List.mapM_pure]

lemma validateAt_fields (fields : List FieldDescriptor) (entries : List (String × Json))
    (path : Path) :
    (Schema.object .empty (fields.map fun f => (f.name, f.schema)) : Schema m).validateAt
      (some (.object entries)) path = pure (report fields entries path) := by
  rw [Schema.validateAt, Base.enter, Base.admission_some_object]
  simp only [validateFields_declared, pure_bind]
  simp [Base.conclude_eq, Base.conclusion, Base.empty, assembleObject, report, Json.get?,
    Json.entries, List.filterMap_map, Function.comp_def]

theorem validateAt_compile (t : InputType) (v : Option Json) (path : Path) :
    (t.compile : Schema m).validateAt v path = pure (t.interpret v path) := by
  rw [compile_eq, Schema.validateAt, Base.enter]
  cases v with
  | none => rfl
  | some v =>
    cases v with
    | object entries => exact validateAt_fields t.declared entries path
    | string s =>
      by_cases hs : s = ""
      · subst hs
        rfl
      · simp [Base.admission, interpret, Json.isNull, Json.isEmptyText, Kind.accepts, hs]
        rfl
    | _ => rfl

theorem validateAt_compile_post :
    let five := Json.number (.whole ⟨5, by decide, by decide⟩)
    let rule : RuleDescriptor := ⟨"maxLength", some [five]⟩
    let draft : FieldDescriptor := ⟨"title", .scalar, false, some (.named "String"), []⟩
    let title := { draft with required := true, validation := [rule] }
    let rating : FieldDescriptor := ⟨"rating", .scalar, false, some (.named "Int"), []⟩
    let t : InputType := ⟨[draft, rating, title]⟩
    let v := some (Json.object [("rating", .string "high"), ("title", .string "Too long")])
    let r : Report := (t.compile : Schema Id).validateAt v .root
    LawfulMonad Id ∧ r = t.interpret v .root ∧
      r.errors = [rule.finding (Path.root.field "title") "tooLong" "Must be at most 5 characters.",
        ⟨Path.root.field "rating", "invalidType", "Expected number, received string", none⟩] := by
  intro five rule draft title rating t v r
  have hr : r = t.interpret v .root := validateAt_compile (m := Id) t v .root
  refine ⟨inferInstance, hr, ?_⟩
  rw [hr]
  rfl

end InputType

end Intake
