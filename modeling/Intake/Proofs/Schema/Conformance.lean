import Intake.Proofs.Checks
import Intake.Proofs.Schema.Branches

namespace Intake

variable {m : Type → Type}

namespace Base

def Allows (b : Base m) (kind : Kind) (P : Json → Prop) : Option Json → Prop
  | none => b.optional = true
  | some v => v = .null ∧ (b.optional = true ∨ b.nullable = true) ∨
      v ≠ .null ∧ (v = .string "" → b.optional = true) ∧ kind.Describes v ∧ P v

def Holds (b : Base Id) (v : Json) : Prop := ∀ r ∈ b.registrations, r.check.Holds v

lemma allows_iff {b : Base m} {kind : Kind} {P : Json → Prop} {v : Option Json} :
    b.Allows kind P v ↔
      b.admission kind v = .exempt ∨ ∃ w, b.admission kind v = .admitted w ∧ P w := by
  rw [admission_eq_exempt]
  simp only [admission_eq_admitted, Kind.accepts_iff]
  cases v with
  | none => simp [Allows]
  | some v =>
    have he : (v.isEmptyText && !b.optional) = false ↔ (v = .string "" → b.optional = true) := by
      rw [← Json.isEmptyText_iff]
      cases v.isEmptyText <;> cases b.optional <;> simp
    have hn : v.isNull = false ↔ v ≠ .null := by
      rw [← Bool.not_eq_true, Json.isNull_iff]
    simp only [Allows, Option.some.injEq, reduceCtorEq, false_and, false_or]
    refine or_congr_right ⟨fun ⟨h, h', hk, hp⟩ => ?_, ?_⟩
    · exact ⟨v, ⟨rfl, hn.2 h, he.2 h', hk⟩, hp⟩
    · rintro ⟨w, ⟨rfl, h, h', hk⟩, hp⟩
      exact ⟨hn.1 h, he.1 h', hk, hp⟩

lemma allows_admitted {b : Base m} {kind : Kind} {v : Option Json} {w : Json} (P : Json → Prop)
    (h : b.admission kind v = .admitted w) : b.Allows kind P v ↔ P w := by
  simp [allows_iff, h]

end Base

namespace Schema

mutual

def Conforms (s : Schema Id) (v : Option Json) : Prop :=
  match s with
  | scalar kind base => base.Allows (.scalar kind) base.Holds v
  | array base items => base.Allows .array (fun w =>
      base.Holds w ∧ ∀ item ∈ w.items, items.Conforms (some item)) v
  | object base fields => base.Allows .object (fun w =>
      base.Holds w ∧ FieldsConform fields w) v
  | custom _ => False
termination_by structural s

def FieldsConform (fields : List (String × Schema Id)) (w : Json) : Prop :=
  match fields with
  | [] => True
  | (name, field) :: rest => field.Conforms (w.get? name) ∧ FieldsConform rest w
termination_by structural fields

end

lemma fieldsConform_iff (fields : List (String × Schema Id)) (w : Json) :
    FieldsConform fields w ↔ ∀ x ∈ fields, x.2.Conforms (w.get? x.1) := by
  induction fields with
  | nil => simp [FieldsConform]
  | cons x rest ih => simp [FieldsConform, ih]

def BuiltInNode : Schema m → Prop
  | scalar kind base => ∀ r ∈ base.registrations, r.check.Suits (.scalar kind)
  | array base _ => ∀ r ∈ base.registrations, r.check.Suits .array
  | object base _ => ∀ r ∈ base.registrations, r.check.Suits .object
  | custom _ => False

instance (s : Schema m) : Decidable s.BuiltInNode :=
  match s with
  | scalar _ base | array base _ | object base _ =>
    inferInstanceAs (Decidable (∀ r ∈ base.registrations, r.check.Suits _))
  | custom _ => instDecidableFalse

def BuiltIn (s : Schema m) : Prop := s.All BuiltInNode

instance (s : Schema m) : Decidable s.BuiltIn := decidableAll BuiltInNode s

lemma BuiltIn.all_checks {P : Check m → Prop} (hp : ∀ c kind, c.Suits kind → P c) {s : Schema m}
    (hs : s.BuiltIn) : s.All fun t => ∀ r ∈ t.base.registrations, P r.check := by
  apply All.mono _ hs
  intro t ht r hr
  cases t with
  | custom leaf => exact ht.elim
  | _ => exact hp _ _ (ht r hr)

lemma conforms_exempt {s : Schema Id} (hs : s.Proper) {v : Option Json}
    (h : s.admission v = .exempt) : s.Conforms v := by
  cases s with
  | custom leaf => exact hs.elim
  | _ => exact Base.allows_iff.2 (Or.inl h)

lemma not_conforms_refused {s : Schema Id} {v : Option Json} {why : Refusal}
    (h : s.admission v = .refused why) : ¬ s.Conforms v := by
  cases s with
  | custom leaf => exact id
  | _ =>
    intro hc
    rcases Base.allows_iff.1 hc with hc | ⟨w, hc, -⟩ <;> cases h.symm.trans hc

lemma conforms_admitted {s : Schema Id} {v : Option Json} {w : Json}
    (h : s.admission v = .admitted w) :
    s.Conforms v ↔ s.base.Holds w ∧ ∀ b ∈ s.branches w, b.schema.Conforms b.input := by
  cases s with
  | custom leaf => cases h
  | scalar kind base =>
    refine (Base.allows_admitted _ h).trans ?_
    simp [branches, Schema.base]
  | array base items =>
    refine (Base.allows_admitted _ h).trans (and_congr_right' ?_)
    constructor
    · intro hi b hb
      obtain ⟨item, i, hx, rfl⟩ := mem_branches_array.1 hb
      exact hi item (List.mem_of_getElem? hx)
    · intro hb item hx
      obtain ⟨i, hi⟩ := List.mem_iff_getElem?.1 hx
      exact hb _ (mem_branches_array.2 ⟨item, i, hi, rfl⟩)
  | object base fields =>
    refine (Base.allows_admitted _ h).trans (and_congr_right' ?_)
    rw [fieldsConform_iff]
    constructor
    · intro hf b hb
      obtain ⟨name, field, hx, rfl⟩ := mem_branches_object.1 hb
      exact hf _ hx
    · intro hb x hx
      exact hb _ (mem_branches_object.2 ⟨x.1, x.2, hx, rfl⟩)

lemma holds_array_congr {c : Check Id} (hc : c.Suits .array) {xs ys : List Json}
    (h : xs.length = ys.length) : c.Holds (.array xs) ↔ c.Holds (.array ys) := by
  cases c with
  | limit c =>
    cases c <;> simp_all [Check.Suits, Constraint.kind, Check.Holds, Constraint.Holds]
  | _ => cases hc

lemma not_suits_object (c : Check m) : ¬ c.Suits .object := by
  cases c with
  | limit c => cases c <;> intro hc <;> cases hc
  | custom run => exact id
  | _ =>
    intro hc
    cases hc

lemma holds_assembled {s : Schema Id} (hs : s.BuiltInNode) {r : Registration Id}
    (hr : r ∈ s.base.registrations) {v : Option Json} {w : Json} (h : s.admission v = .admitted w) :
    r.check.Holds (s.assembled w) ↔ r.check.Holds w := by
  cases s with
  | scalar kind base => exact Iff.rfl
  | custom leaf => exact hs.elim
  | object base fields => exact absurd (hs r hr) (not_suits_object _)
  | array base items =>
    obtain ⟨_, xs, rfl⟩ := Base.admission_array h
    apply holds_array_congr (hs r hr)
    rw [List.length_map, Json.items]

lemma errors_run_assembled {s : Schema Id} (hs : s.BuiltInNode) {r : Registration Id}
    (hr : r ∈ s.base.registrations) {v : Option Json} {w : Json} (h : s.admission v = .admitted w)
    (path : Path) : (r.run (s.assembled w) path).errors = [] ↔ r.check.Holds w := by
  rw [← holds_assembled hs hr h]
  refine (r.errors_present _).trans ?_
  cases s with
  | custom leaf => exact hs.elim
  | object base fields => exact absurd (hs r hr) (not_suits_object _)
  | array base items => exact Check.errors_run (hs r hr) ⟨_, rfl⟩ path
  | scalar kind base =>
    obtain ⟨_, _, _, hk⟩ := (Base.admission_eq_admitted base _ v w).1 h
    exact Check.errors_run (hs r hr) ((Kind.accepts_iff _ w).1 hk) path

lemma errors_findings_admitted {s : Schema Id} (hs : s.Standard) {v : Option Json} {w : Json}
    (h : s.admission v = .admitted w) (path : Path) : (s.findings v path).errors =
      (s.branches w).flatMap (fun b => (b.schema.findings b.input (path.step b.segment)).errors) ++
        s.base.registrations.flatMap fun r => (r.run (s.assembled w) path).errors := by
  rw [findings_eq hs, h]
  change (Outcome.join (Id.run (List.mapM _ _)) ++ Outcome.join (Id.run (List.mapM _ _))).errors = _
  rw [List.idRun_mapM, List.idRun_mapM, Outcome.errors_append, Outcome.errors_join,
    Outcome.errors_join, List.flatMap_map, List.flatMap_map]
  rfl

theorem isValid_iff_conforms {s : Schema Id} (hs : s.Standard) (hb : s.BuiltIn) (v : Option Json)
    (path : Path) : (s.validateAt v path).isValid = true ↔ s.Conforms v := by
  rw [Report.isValid_iff]
  change (s.findings v path).errors = [] ↔ _
  induction s using branchInduct generalizing v path with
  | node s ih =>
    cases ha : s.admission v with
    | exempt =>
      rw [findings_eq hs, ha]
      exact iff_of_true rfl (conforms_exempt hs.node ha)
    | refused why =>
      rw [findings_eq hs, ha]
      exact iff_of_false (List.cons_ne_nil _ _) (not_conforms_refused ha)
    | admitted w =>
      have hi : (∀ b ∈ s.branches w,
          (b.schema.findings b.input (path.step b.segment)).errors = []) ↔
            ∀ b ∈ s.branches w, b.schema.Conforms b.input :=
        forall₂_congr fun b hw => ih w b hw (hs.branch hw) (hb.branch hw) _ _
      have ho : (∀ r ∈ s.base.registrations, (r.run (s.assembled w) path).errors = []) ↔
          s.base.Holds w :=
        forall₂_congr fun r hr => errors_run_assembled hb.node hr ha path
      rw [errors_findings_admitted hs ha, List.append_eq_nil_iff, List.flatMap_eq_nil_iff,
        List.flatMap_eq_nil_iff, hi, ho, conforms_admitted ha, and_comm]

lemma builtIn_signUp : signUp.BuiltIn := by decide

theorem isValid_iff_conforms_signUp :
    let v := fun name email => Json.object [("emails", .array [.string email]),
      ("name", .string name), ("avatar", .null), ("note", .null)]
    signUp.Standard ∧ signUp.BuiltIn ∧ signUp.Conforms (some (v "Ada" "ada@home.org")) ∧
      ¬ signUp.Conforms (some (v "Ada" "ada@home")) ∧ "A𝄞".length = 2 ∧
      signUp.Conforms (some (v "A𝄞" "ada@home.org")) ∧
      ¬ signUp.Conforms (some (v "𝄞" "ada@home.org")) := by
  intro v
  have hv (name email : String) :=
    isValid_iff_conforms standard_signUp builtIn_signUp (some (v name email)) .root
  exact ⟨standard_signUp, builtIn_signUp, (hv _ _).1 (by decide), (hv _ _).not.1 (by decide), rfl,
    (hv _ _).1 (by decide), (hv _ _).not.1 (by decide)⟩

end Schema

end Intake
