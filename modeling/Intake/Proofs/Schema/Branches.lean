import Intake.Proofs.Schema.Projection
import Intake.Proofs.Sequencing

/-! The parts that a schema looks into, and what validation comes to at one node. -/

namespace Intake

def Path.step (p : Path) (segment : Segment) : Path := ⟨p.segments ++ [segment]⟩

structure Branch (m : Type → Type) where
  segment : Segment
  schema : Schema m
  input : Option Json

variable {m : Type → Type}

lemma Report.toOutcome_foldl_absorb (parts : List Report) (r : Report) :
    (parts.foldl (fun report part => (Report.absorb report part).2) r).toOutcome =
      r.toOutcome ++ .join (parts.map Report.toOutcome) := by
  induction parts generalizing r with
  | nil => exact (Outcome.append_pass _).symm
  | cons part rest ih =>
    refine (ih (r.extend part.toOutcome)).trans ?_
    rw [Report.toOutcome_extend, List.map_cons, Outcome.join_cons, Outcome.append_assoc]

namespace Base

def conclusion [Monad m] (base : Base m) (inner : List Outcome) (w : Json) (path : Path) :
    m Report :=
  (fun own => .ofOutcome (.join inner ++ own) (some w)) <$>
    (Outcome.join <$> base.registrations.mapM fun r => r.present <$> r.check.run w path)

lemma conclude_eq [Monad m] [LawfulMonad m] (base : Base m) (parts : List Report) (w : Json)
    (path : Path) :
    base.conclude parts w path = base.conclusion (parts.map Report.toOutcome) w path := by
  rw [conclude, conclusion, Registration.runAll_eq, bind_pure_comp]
  refine congrArg (· <$> _) (funext fun own => Report.ext ?_ rfl)
  change (Report.extend _ own).toOutcome = _
  rw [Report.toOutcome_extend, Report.toOutcome_foldl_absorb]
  rfl

lemma conclude_nil [Monad m] [LawfulMonad m] {base : Base m} {w : Json} {path : Path} {o : Outcome}
    (h : Registration.runAll base.registrations w path = pure o) :
    base.conclude [] w path = pure (.ofOutcome o (some w)) := by
  rw [conclude, h, pure_bind]
  exact congrArg pure (Report.ext (Report.toOutcome_extend _ _) rfl)

end Base

namespace Schema

def branches : Schema m → Json → List (Branch m)
  | scalar _ _, _ | custom _, _ => []
  | array _ items, w => w.items.zipIdx.map fun x => ⟨.index x.2, items, some x.1⟩
  | object _ fields, w => fields.map fun x => ⟨.field x.1, x.2, w.get? x.1⟩

lemma mem_branches_array {base : Base m} {items : Schema m} {w : Json} {b : Branch m} :
    b ∈ (array base items).branches w ↔
      ∃ item i, w.items[i]? = some item ∧ b = ⟨.index i, items, some item⟩ := by
  simp only [branches, List.mem_map, Prod.exists, List.mem_zipIdx_iff_getElem?]
  exact exists₂_congr fun _ _ => and_congr_right' eq_comm

lemma mem_branches_object {base : Base m} {fields : List (String × Schema m)} {w : Json}
    {b : Branch m} : b ∈ (object base fields).branches w ↔
      ∃ name field, (name, field) ∈ fields ∧ b = ⟨.field name, field, w.get? name⟩ := by
  simp only [branches, List.mem_map, Prod.exists]
  exact exists₂_congr fun _ _ => and_congr_right' eq_comm

theorem branchInduct {motive : Schema m → Prop}
    (node : ∀ s, (∀ w, ∀ b ∈ s.branches w, motive b.schema) → motive s) (s : Schema m) :
    motive s := by
  induction s with
  | scalar kind base => exact node _ fun _ _ h => absurd h List.not_mem_nil
  | custom leaf => exact node _ fun _ _ h => absurd h List.not_mem_nil
  | array base items ih =>
    refine node _ fun w b hb => ?_
    obtain ⟨_, _, _, rfl⟩ := mem_branches_array.1 hb
    exact ih
  | object base fields ih =>
    refine node _ fun w b hb => ?_
    obtain ⟨_, _, hx, rfl⟩ := mem_branches_object.1 hb
    exact ih _ hx

lemma All.node {P : Schema m → Prop} {s : Schema m} (h : s.All P) : P s := by
  cases s with
  | scalar kind base => exact h
  | custom leaf => exact h
  | array base items => exact h.1
  | object base fields => exact h.1

lemma All.branch {P : Schema m → Prop} {s : Schema m} (h : s.All P) {w : Json} {b : Branch m}
    (hb : b ∈ s.branches w) : b.schema.All P := by
  cases s with
  | scalar kind base => exact absurd hb List.not_mem_nil
  | custom leaf => exact absurd hb List.not_mem_nil
  | array base items =>
    obtain ⟨_, _, _, rfl⟩ := mem_branches_array.1 hb
    exact h.2
  | object base fields =>
    obtain ⟨_, _, hx, rfl⟩ := mem_branches_object.1 hb
    exact ((all_object _ _ _).1 h).2 _ hx

lemma part?_branch {s : Schema m} (hs : s.Distinct) {w : Json} {b : Branch m}
    (hb : b ∈ s.branches w) : s.part? b.segment = some b.schema := by
  cases s with
  | scalar kind base => exact absurd hb List.not_mem_nil
  | custom leaf => exact absurd hb List.not_mem_nil
  | array base items =>
    obtain ⟨_, _, _, rfl⟩ := mem_branches_array.1 hb
    rfl
  | object base fields =>
    obtain ⟨_, _, hx, rfl⟩ := mem_branches_object.1 hb
    exact lookup_of_mem hs hx

lemma input_branch {s : Schema m} {w : Json} {b : Branch m} (hb : b ∈ s.branches w) :
    w.part? b.segment = b.input := by
  cases s with
  | scalar kind base => exact absurd hb List.not_mem_nil
  | custom leaf => exact absurd hb List.not_mem_nil
  | array base items =>
    obtain ⟨_, _, hi, rfl⟩ := mem_branches_array.1 hb
    exact hi
  | object base fields =>
    obtain ⟨_, _, _, rfl⟩ := mem_branches_object.1 hb
    rfl

lemma nodup_branches {s : Schema m} (hs : s.Proper) (w : Json) :
    ((s.branches w).map Branch.segment).Nodup := by
  cases s with
  | scalar kind base => exact List.nodup_nil
  | custom leaf => exact List.nodup_nil
  | array base items =>
    have he : ((array base items).branches w).map Branch.segment =
        (w.items.zipIdx.map Prod.snd).map Segment.index := by
      rw [branches, List.map_map, List.map_map]
      rfl
    rw [he, List.zipIdx_map_snd]
    exact List.Nodup.map (fun _ _ => Segment.index.inj) List.nodup_range'
  | object base fields =>
    have he : ((object base fields).branches w).map Branch.segment =
        (fields.map Prod.fst).map Segment.field := by
      rw [branches, List.map_map, List.map_map]
      rfl
    rw [he]
    exact List.Nodup.map (fun _ _ => Segment.field.inj) hs

def ownChecks [Monad m] (s : Schema m) (w : Json) (path : Path) : m Outcome :=
  Outcome.join <$> s.base.registrations.mapM fun r =>
    r.present <$> r.check.run (s.assembled w) path

def findings [Monad m] (s : Schema m) (v : Option Json) (path : Path) : m Outcome :=
  Report.toOutcome <$> s.validateAt v path

def innerFindings [Monad m] (s : Schema m) (w : Json) (path : Path) : m Outcome := do
  let inner ← (s.branches w).mapM fun b => b.schema.findings b.input (path.step b.segment)
  let own ← s.ownChecks w path
  return .join inner ++ own

variable [Monad m]

lemma validateAt_exempt {s : Schema m} (hs : s.Proper) {v : Option Json} (path : Path)
    (h : s.admission v = .exempt) : s.validateAt v path = pure (.valid v) := by
  cases s with
  | custom leaf => exact hs.elim
  | _ =>
    simp only [admission] at h
    simp only [validateAt, Base.enter, h]

lemma validateAt_refused {s : Schema m} {v : Option Json} {why : Refusal} (path : Path)
    (h : s.admission v = .refused why) :
    s.validateAt v path = pure (.invalid v (why.finding path)) := by
  cases s with
  | custom leaf => cases h
  | _ =>
    simp only [admission] at h
    simp only [validateAt, Base.enter, h]

variable [LawfulMonad m]

lemma map_innerFindings (s : Schema m) (w : Json) (path : Path) :
    (Report.ofOutcome · (some (s.assembled w))) <$> s.innerFindings w path = (do
      let inner ← (s.branches w).mapM fun b => b.schema.findings b.input (path.step b.segment)
      s.base.conclusion inner (s.assembled w) path : m Report) := by
  simp [innerFindings, Base.conclusion, ownChecks]

lemma validateFields_eq (fields : List (String × Schema m)) (w : Json) (path : Path) :
    validateFields fields w path =
      fields.mapM fun x => (x.1, ·) <$> x.2.validateAt (w.get? x.1) (path.field x.1) := by
  induction fields with
  | nil => simp [validateFields]
  | cons x rest ih => simp [validateFields, ih]

lemma validateAt_admitted {s : Schema m} (hs : s.Proper) {v : Option Json} {w : Json} (path : Path)
    (h : s.admission v = .admitted w)
    (hp : ∀ b ∈ s.branches w, ∀ path, b.schema.validateAt b.input path =
      (.ofOutcome · (b.schema.project b.input)) <$> b.schema.findings b.input path) :
    s.validateAt v path = (.ofOutcome · (some (s.assembled w))) <$> s.innerFindings w path := by
  rw [map_innerFindings]
  cases s with
  | custom leaf => exact hs.elim
  | scalar kind base =>
    simp only [admission] at h
    simp [validateAt, Base.enter, h, Base.conclude_eq, branches, assembled, Schema.base]
  | array base items =>
    have hb (x : Json × Nat) (hx : x ∈ w.items.zipIdx) :
        items.validateAt (some x.1) (path.index x.2) =
          (.ofOutcome · (items.project (some x.1))) <$>
            items.findings (some x.1) (path.index x.2) :=
      hp ⟨.index x.2, items, some x.1⟩ (List.mem_map_of_mem hx) _
    have ha : w.items.map (fun item => (items.project (some item)).getD .null) =
        (w.items.zipIdx.map fun x => items.project (some x.1)).map (·.getD .null) := by
      conv_lhs => rw [← List.zipIdx_map_fst 0 w.items]
      rw [List.map_map, List.map_map]
      rfl
    simp only [admission] at h
    simp only [validateAt, Base.enter, h, Base.conclude_eq, mapM_congr hb, branches, assembled, ha,
      List.mapM_map]
    have hg := mapM_build_bind
      (fun (x : Json × Nat) o => Report.ofOutcome o (items.project (some x.1)))
      Report.toOutcome Report.value (fun x => items.project (some x.1)) (fun _ _ => rfl)
      (fun _ _ => rfl) w.items.zipIdx (fun x => items.findings (some x.1) (path.index x.2))
      fun found values => base.conclusion found (.array (values.map (·.getD .null))) path
    simp only [List.map_map] at hg ⊢
    exact hg
  | object base fields =>
    have hb (x : String × Schema m) (hx : x ∈ fields) :
        x.2.validateAt (w.get? x.1) (path.field x.1) =
          (.ofOutcome · (x.2.project (w.get? x.1))) <$>
            x.2.findings (w.get? x.1) (path.field x.1) :=
      hp ⟨.field x.1, x.2, w.get? x.1⟩ (List.mem_map_of_mem hx) _
    have hg := mapM_build_bind
      (fun (x : String × Schema m) o => (x.1, Report.ofOutcome o (x.2.project (w.get? x.1))))
      (fun r => r.2.toOutcome) (fun r => (r.1, r.2.value))
      (fun x => (x.1, x.2.project (w.get? x.1))) (fun _ _ => rfl) (fun _ _ => rfl) fields
      (fun x => x.2.findings (w.get? x.1) (path.field x.1)) fun found values =>
        base.conclusion found (.object (values.filterMap fun y => y.2.map (y.1, ·))) path
    simp only [admission] at h
    simp only [validateAt, Base.enter, h, Base.conclude_eq, validateFields_eq]
    rw [mapM_congr fun x hx => congrArg _ (hb x hx)]
    simp only [branches, assembled, projectFields_eq, List.mapM_map, Functor.map_map, List.map_map]
    simp only [List.filterMap_map] at hg
    exact hg

theorem validateAt_eq {s : Schema m} (hs : s.Standard) (v : Option Json) (path : Path) :
    s.validateAt v path = (.ofOutcome · (s.project v)) <$> s.findings v path := by
  induction s using branchInduct generalizing v path with
  | node s ih =>
    cases h : s.admission v with
    | exempt =>
      rw [findings, validateAt_exempt hs.node path h, project_of_not_admitted (by simp [h])]
      simp [Report.valid_eq]
    | refused why =>
      rw [findings, validateAt_refused path h, project_of_not_admitted (by simp [h])]
      simp [Report.invalid_eq]
    | admitted w =>
      rw [findings, project_admitted h, validateAt_admitted hs.node path h
        fun b hb path => ih w b hb (hs.branch hb) _ path]
      simp

theorem findings_eq {s : Schema m} (hs : s.Standard) (v : Option Json) (path : Path) :
    s.findings v path = match s.admission v with
      | .exempt => pure .pass
      | .refused why => pure (.fail (why.finding path))
      | .admitted w => s.innerFindings w path := by
  cases h : s.admission v with
  | exempt => simp [findings, validateAt_exempt hs.node path h, Report.valid]
  | refused why => simp [findings, validateAt_refused path h, Report.invalid]
  | admitted w =>
    simp [findings, validateAt_admitted hs.node path h
      fun b hb path => validateAt_eq (hs.branch hb) _ path]

end Schema

end Intake
