import Intake.Proofs.Schema.Excerpts
import Intake.Proofs.Schema.Respect
import Intake.Proofs.Schema.Values

/-! The order in which fields are declared is the order of findings and of keys, and nothing else
rests on it. -/

namespace Intake

namespace Json

lemma WellFormed.part? {v x : Json} (hv : v.WellFormed) {segment : Segment}
    (h : v.part? segment = some x) : x.WellFormed := by
  cases segment with
  | field name =>
    cases v with
    | object xs => exact (wellFormed_object.1 hv).2 _ (mem_of_lookup h)
    | _ => cases h
  | index i =>
    cases v with
    | array xs => exact wellFormed_array.1 hv x (List.mem_of_getElem? h)
    | _ => cases h

lemma wellFormed_at? {v : Option Json} (hv : ∀ x, v = some x → x.WellFormed) {q : List Segment} :
    ∀ x, at? v q = some x → x.WellFormed := by
  induction q generalizing v with
  | nil => exact hv
  | cons segment rest ih =>
    refine ih fun x hx => ?_
    obtain ⟨w, rfl, hw⟩ := Option.bind_eq_some_iff.1 hx
    exact (hv w rfl).part? hw

lemma alike_self {v : Option Json} (hv : ∀ x, v = some x → x.WellFormed) :
    Option.Rel Alike v v := by
  cases v with
  | none => exact .none
  | some x => exact .some (.refl (hv x rfl))

end Json

namespace Path

lemma append_left_cancel {path p q : Path} (h : path ++ p = path ++ q) : p = q :=
  eq_of_segments_eq (List.append_cancel_left (congrArg segments h))

end Path

lemma filter_eq_of_perm {α : Type} {xs ys : List α} {P : α → Bool} (hp : xs.Perm ys)
    (hn : xs.Nodup) (h : ∀ x y, P x = true → P y = true → x = y) : xs.filter P = ys.filter P := by
  have hf := hp.filter P
  cases hx : xs.filter P with
  | nil =>
    rw [hx] at hf
    exact (List.nil_perm.1 hf).symm
  | cons x rest =>
    have hd := hn.filter P
    have hm (y : α) (hy : y ∈ x :: rest) : P y = true := List.of_mem_filter (hx ▸ hy)
    rw [hx, List.nodup_cons] at hd
    have hr : rest = [] := by
      apply List.eq_nil_iff_forall_not_mem.2
      intro y hy
      obtain rfl := h x y (hm x List.mem_cons_self) (hm y (List.mem_cons_of_mem _ hy))
      exact hd.1 hy
    rw [hx, hr] at hf
    rw [hr]
    exact List.singleton_perm.1 hf

variable {m : Type → Type}

namespace Schema

inductive Permuted : Schema m → Schema m → Prop
  | scalar {kind base} : Permuted (scalar kind base) (scalar kind base)
  | array {base items items'} : Permuted items items' →
      Permuted (array base items) (array base items')
  | object {base} {fields fields' : List (String × Schema m)} :
      (fields.map Prod.fst).Perm (fields'.map Prod.fst) →
      (∀ name t t', fields.lookup name = some t → fields'.lookup name = some t' →
        Permuted t t') →
      Permuted (object base fields) (object base fields')

lemma permuted_refl {s : Schema m} (hs : s.Standard) : s.Permuted s := by
  induction s with
  | scalar kind base => exact .scalar
  | custom leaf => exact hs.elim
  | array base items ih => exact .array (ih hs.2)
  | object base fields ih =>
    refine .object (.refl _) fun name t t' ht ht' => ?_
    obtain rfl := Option.some.inj (ht.symm.trans ht')
    have hm := mem_of_lookup ht
    exact ih _ hm (((all_object _ _ _).1 hs).2 _ hm)

lemma permuted_of_perm {base : Base m} {fields fields' : List (String × Schema m)}
    (hs : (object base fields).Standard) (hp : fields.Perm fields') :
    (object base fields).Permuted (object base fields') := by
  obtain ⟨hn, hf⟩ := (all_object _ _ _).1 hs
  refine .object (hp.map Prod.fst) fun name t t' ht ht' => ?_
  have hm : (name, t') ∈ fields := hp.mem_iff.2 (mem_of_lookup ht')
  obtain rfl := Option.some.inj (ht.symm.trans (lookup_of_mem hn hm))
  exact permuted_refl (hf _ hm)

namespace Permuted

variable {s s' : Schema m}

lemma base_eq (h : s.Permuted s') : s.base = s'.base := by
  cases h <;> rfl

lemma admission_eq (h : s.Permuted s') (v : Option Json) : s.admission v = s'.admission v := by
  cases h <;> rfl

lemma standard (h : s.Permuted s') (hs : s.Standard) : s'.Standard := by
  induction h with
  | scalar => exact hs
  | array _ ih => exact ⟨trivial, ih hs.2⟩
  | object hp _ ih =>
    obtain ⟨hn, hf⟩ := (all_object _ _ _).1 hs
    have hn' := hp.nodup hn
    refine (all_object _ _ _).2 ⟨hn', fun x hx => ?_⟩
    obtain ⟨y, hy, he⟩ := List.mem_map.1 (hp.mem_iff.2 (List.mem_map_of_mem hx))
    exact ih x.1 y.2 x.2 (he ▸ lookup_of_mem hn hy) (lookup_of_mem hn' hx) (hf y hy)

lemma part? (h : s.Permuted s') (segment : Segment) :
    Option.Rel Permuted (s.part? segment) (s'.part? segment) := by
  cases h with
  | scalar => exact .none
  | array h =>
    cases segment with
    | field name => exact .none
    | index i => exact .some h
  | object hp h =>
    cases segment with
    | field name => exact rel_lookup_of_perm hp (h name)
    | index i => exact .none

lemma at? (h : s.Permuted s') (q : List Segment) : Option.Rel Permuted (s.at? q) (s'.at? q) := by
  induction q generalizing s s' with
  | nil => exact .some h
  | cons segment rest ih =>
    have hp := h.part? segment
    rw [at?_cons, at?_cons]
    generalize s.part? segment = t, s'.part? segment = t' at hp
    cases hp with
    | none => exact .none
    | some hp => exact ih hp

lemma positions_perm (h : s.Permuted s') (hs : s.Standard) (v : Option Json) :
    (s.positions v).Perm (s'.positions v) := by
  induction h generalizing v with
  | scalar => exact .refl _
  | @array base items items' _ ih =>
    simp only [positions]
    cases base.admission .array v with
    | admitted w =>
      apply List.Perm.append_right
      exact List.Perm.flatMap (.refl _) fun x _ => (ih hs.2 (some x.1)).map _
    | _ => exact .refl _
  | @object base fields fields' hp _ ih =>
    obtain ⟨hn, hf⟩ := (all_object _ _ _).1 hs
    simp only [positions]
    cases base.admission .object v with
    | admitted w =>
      apply List.Perm.append_right
      rw [fieldPositions_eq, fieldPositions_eq]
      apply perm_flatMap_of_lookup hn hp
      intro name t t' ht ht'
      exact (ih name t t' ht ht' (hf _ (mem_of_lookup ht)) _).map _
    | _ => exact .refl _

lemma alike_outside (h : s.Permuted s') {v : Option Json}
    (ho : ∀ w, s.admission v ≠ .admitted w) (hv : ∀ x, v = some x → x.WellFormed) :
    Option.Rel Json.Alike (s.project v) (s'.project v) := by
  have ho' (w : Json) : s'.admission v ≠ .admitted w := h.admission_eq v ▸ ho w
  rw [project_of_not_admitted ho, project_of_not_admitted ho']
  exact Json.alike_self hv

lemma alike_project (h : s.Permuted s') (hs : s.Standard) {v : Option Json}
    (hv : ∀ x, v = some x → x.WellFormed) :
    Option.Rel Json.Alike (s.project v) (s'.project v) := by
  induction h generalizing v with
  | scalar => exact Json.alike_self hv
  | @array base items items' h ih =>
    by_cases ha : ∃ w, base.admission .array v = .admitted w
    · obtain ⟨w, ha⟩ := ha
      obtain ⟨rfl, xs, rfl⟩ := Base.admission_array ha
      rw [project_array, project_array, Option.rel_some_some, Json.alike_array,
        List.forall₂_map_left_iff, List.forall₂_map_right_iff, List.forall₂_same]
      intro x hx
      have hx : x.WellFormed := Json.wellFormed_array.1 (hv _ rfl) x hx
      have hp := ih hs.2 (v := some x) fun _ he => Option.some.inj he ▸ hx
      rwa [← some_getD_project items, ← some_getD_project items', Option.rel_some_some] at hp
    · exact (Permuted.array h).alike_outside (not_exists.1 ha) hv
  | @object base fields fields' hp h ih =>
    obtain ⟨hn, hf⟩ := (all_object _ _ _).1 hs
    have hn' := hp.nodup hn
    by_cases ha : ∃ w, base.admission .object v = .admitted w
    · obtain ⟨w, ha⟩ := ha
      obtain ⟨rfl, xs, rfl⟩ := Base.admission_object ha
      rw [project_object, project_object, Option.rel_some_some, Json.alike_object,
        names_projectFields, names_projectFields]
      refine ⟨hn.filter _, hn'.filter _, fun name => ?_⟩
      rw [lookup_projectFields hn, lookup_projectFields hn']
      have hx (x : Json) (hx : (Json.object xs).part? (.field name) = some x) : x.WellFormed :=
        (hv _ rfl).part? hx
      have hr := rel_lookup_of_perm (R := fun t t' => Option.Rel Json.Alike
          (t.project ((Json.object xs).get? name)) (t'.project ((Json.object xs).get? name))) hp
        fun t t' ht ht' => ih name t t' ht ht' (hf _ (mem_of_lookup ht)) hx
      generalize fields.lookup name = t, fields'.lookup name = t' at hr
      cases hr with
      | none => exact .none
      | some hr => exact hr
    · exact (Permuted.object hp h).alike_outside (not_exists.1 ha) hv

variable [Monad m] [LawfulMonad m]

lemma own_eq (h : s.Permuted s') (hs : s.Standard) (hr : s.RespectsNode) {v : Option Json}
    (hv : ∀ x, v = some x → x.WellFormed) (path : Path) : s.own v path = s'.own v path := by
  rw [own, own, ← h.admission_eq]
  cases ha : s.admission v with
  | admitted w =>
    have hp := h.alike_project hs hv
    rw [project_admitted ha, project_admitted (h.admission_eq v ▸ ha), Option.rel_some_some] at hp
    exact ownChecks_of_alike h.base_eq hr ha hp path
  | _ => rfl

lemma ownAt_eq (h : s.Permuted s') (hs : s.Standard) (hr : s.Respects) {v : Option Json}
    (hv : ∀ x, v = some x → x.WellFormed) (path q : Path) :
    s.ownAt v path q = s'.ownAt v path q := by
  have ha := h.at? q.segments
  rw [ownAt, ownAt]
  generalize ht : s.at? q.segments = t, s'.at? q.segments = t' at ha
  cases ha with
  | none => rfl
  | some ha => exact ha.own_eq (hs.at? ht) (hr.at? ht).node (Json.wellFormed_at? hv) (path ++ q)

end Permuted

section Pure

variable {s s' : Schema Id}

lemma errorsAt_of_join (hl : s.Local) {v : Option Json} {path : Path} {ps : List Path} {r : Report}
    (h : r.toOutcome = .join (ps.map (s.ownAt v path))) (q : Path) :
    r.errorsAt q = (Outcome.join
      ((ps.filter fun p => path ++ p = q).map (s.ownAt v path))).errors := by
  have hk := Outcome.kept_join_map (fun p => liesAt_ownAt hl v path p) (fun p => p = q) ps
  rw [← h] at hk
  exact congrArg Outcome.errors hk

namespace Permuted

variable (h : s.Permuted s') (hs : s.Standard) (hr : s.Respects) {v : Option Json}
  (hv : ∀ x, v = some x → x.WellFormed) (path : Path)

include h hs hv

lemma alike_value :
    Option.Rel Json.Alike (s.validateAt v path).value (s'.validateAt v path).value := by
  rw [value_validateAt hs, value_validateAt (h.standard hs)]
  exact h.alike_project hs hv

include hr

lemma toOutcome_eq :
    (s'.validateAt v path).toOutcome = .join ((s'.positions v).map (s.ownAt v path)) := by
  rw [toOutcome_validateAt (h.standard hs)]
  exact congrArg _ (List.map_congr_left fun q _ => (h.ownAt_eq hs hr hv path q).symm)

lemma findings_perm :
    (s.validateAt v path).errors.Perm (s'.validateAt v path).errors ∧
      (s.validateAt v path).successes.Perm (s'.validateAt v path).successes := by
  have hp := (h.positions_perm hs v).map (s.ownAt v path)
  rw [toOutcome_validateAt hs, h.toOutcome_eq hs hr hv]
  exact ⟨hp.flatMap_right _, hp.flatMap_right _⟩

lemma isValid_eq : (s.validateAt v path).isValid = (s'.validateAt v path).isValid := by
  obtain ⟨he, -⟩ := h.findings_perm hs hr hv path
  rw [Bool.eq_iff_iff, Report.isValid_iff, Report.isValid_iff]
  constructor
  · intro hn
    exact List.nil_perm.1 (hn ▸ he)
  · intro hn
    exact List.perm_nil.1 (hn ▸ he)

lemma errorsAt_eq (hl : s.Local) (q : Path) :
    (s.validateAt v path).errorsAt q = (s'.validateAt v path).errorsAt q := by
  rw [errorsAt_of_join hl (toOutcome_validateAt hs v path),
    errorsAt_of_join hl (h.toOutcome_eq hs hr hv path)]
  rw [filter_eq_of_perm (h.positions_perm hs v) (nodup_positions hs v)]
  intro p p' hq hq'
  exact Path.append_left_cancel ((of_decide_eq_true hq).trans (of_decide_eq_true hq').symm)

end Permuted

theorem validateAt_permuted (hs : s.Standard) (hr : s.Respects) (h : s.Permuted s')
    {v : Option Json} (hv : ∀ x, v = some x → x.WellFormed) (path : Path) :
    let r : Report := s.validateAt v path
    let r' : Report := s'.validateAt v path
    r.isValid = r'.isValid ∧ Option.Rel Json.Alike r.value r'.value ∧
      r.errors.Perm r'.errors ∧ r.successes.Perm r'.successes ∧
      (s.Local → ∀ q, r.errorsAt q = r'.errorsAt q) ∧
      ∀ t : Schema Id, t.BuiltIn → t.Respects ∧ t.Local := by
  intro r r'
  obtain ⟨he, hx⟩ := h.findings_perm hs hr hv path
  refine ⟨h.isValid_eq hs hr hv path, h.alike_value hs hv path, he, hx, fun hl q => ?_,
    fun t ht => ⟨ht.respects, ht.local⟩⟩
  exact h.errorsAt_eq hs hr hv path hl q

theorem validateAt_permuted_signUps :
    let s : Schema Id := arrayOf signUp
    let s' : Schema Id := arrayOf (object signUp.base signUp.fields.reverse)
    let v := Json.array [.object [("name", .string "Al"), ("age", .string "old")]]
    let r : Report := s.validateAt (some v) .root
    let r' : Report := s'.validateAt (some v) .root
    s.Standard ∧ s.Respects ∧ s.Permuted s' ∧ v.WellFormed ∧ s.Local ∧
      r.errors.map (·.path.display) = ["[0].name", "[0].emails", "[0].age", "[0].avatar"] ∧
      r'.errors.map (·.path.display) = ["[0].avatar", "[0].age", "[0].emails", "[0].name"] ∧
      r.errors.Perm r'.errors ∧ Option.Rel Json.Alike r.value r'.value ∧
      ∀ q, r.errorsAt q = r'.errorsAt q := by
  intro s s' v r r'
  have hs : s.Standard := ⟨trivial, standard_signUp⟩
  have hb : s.BuiltIn := ⟨nofun, builtIn_signUp⟩
  have hp : s.Permuted s' := .array (permuted_of_perm standard_signUp (List.reverse_perm _).symm)
  have hv : v.WellFormed := by
    simp [v, Json.WellFormed, Json.WellFormedItems, Json.WellFormedEntries]
  obtain ⟨-, ha, he, -, hq, -⟩ := validateAt_permuted hs hb.respects hp
    (fun _ h => Option.some.inj h ▸ hv) .root
  exact ⟨hs, hb.respects, hp, hv, hb.local, rfl, rfl, he, ha, hq hb.local⟩

end Pure

end Schema

end Intake
