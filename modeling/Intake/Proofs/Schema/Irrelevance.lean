import Intake.Proofs.Schema.Respect
import Intake.Proofs.Schema.Values

/-! What validation takes no notice of: the order of keys, and members that no field declares. -/

namespace Intake

variable {m : Type → Type}

namespace Schema

/-- Two values between which the schema sees no difference: `R` holds of what it does not look into,
and of an object that it lets in only the declared members count. -/
inductive Overlooks (R : Json → Json → Prop) : Schema m → Option Json → Option Json → Prop
  | outside {s v w} : (∀ x, s.admission v ≠ .admitted x) → Option.Rel R v w → Overlooks R s v w
  | scalar {kind base v w} : R v w → Overlooks R (scalar kind base) (some v) (some w)
  | array {base items} {xs ys : List Json} : xs.length = ys.length →
      (∀ (i : Nat) x y, xs[i]? = some x → ys[i]? = some y →
        Overlooks R items (some x) (some y)) →
      Overlooks R (array base items) (some (.array xs)) (some (.array ys))
  | object {base fields} {xs ys : List (String × Json)} :
      (∀ x ∈ fields, Overlooks R x.2 (xs.lookup x.1) (ys.lookup x.1)) →
      Overlooks R (object base fields) (some (.object xs)) (some (.object ys))

namespace Overlooks

variable {s t : Schema m} {v w : Option Json}

lemma alike (h : s.Overlooks Json.Reordered v w) (hv : ∀ x, v = some x → x.WellFormed)
    (hw : ∀ y, w = some y → y.WellFormed) : s.Overlooks Json.Alike v w := by
  induction h with
  | outside ho hr =>
    refine .outside ho ?_
    cases hr with
    | none => exact .none
    | some hr => exact .some (hr.alike (hv _ rfl) (hw _ rfl))
  | scalar hr => exact .scalar (hr.alike (hv _ rfl) (hw _ rfl))
  | array hl _ ih =>
    have hx := Json.wellFormed_array.1 (hv _ rfl)
    have hy := Json.wellFormed_array.1 (hw _ rfl)
    refine .array hl fun i x y hi hi' => ih i x y hi hi' ?_ ?_
    · exact fun _ he => Option.some.inj he ▸ hx x (List.mem_of_getElem? hi)
    · exact fun _ he => Option.some.inj he ▸ hy y (List.mem_of_getElem? hi')
  | object _ ih =>
    have hx := (Json.wellFormed_object.1 (hv _ rfl)).2
    have hy := (Json.wellFormed_object.1 (hw _ rfl)).2
    exact .object fun x hm => ih x hm (fun _ hl => hx _ (mem_of_lookup hl))
      fun _ hl => hy _ (mem_of_lookup hl)

lemma of_reordered {v w : Option Json} (h : Option.Rel Json.Reordered v w) :
    s.Overlooks Json.Reordered v w := by
  induction s generalizing v w with
  | scalar kind base =>
    cases h with
    | none => exact .outside (admission_none _) .none
    | some h => exact .scalar h
  | custom leaf => exact .outside nofun h
  | array base items ih =>
    by_cases ha : ∃ x, base.admission .array v = .admitted x
    · obtain ⟨x, ha⟩ := ha
      obtain ⟨rfl, xs, rfl⟩ := Base.admission_array ha
      obtain ⟨w, rfl, hr⟩ := exists_of_rel_some h
      obtain ⟨ys, rfl, hz⟩ := hr.exists_array
      refine .array hz.length_eq fun i x y hx hy => ih (.some ?_)
      exact (List.forall₂_iff_zip.1 hz).2
        (List.mem_iff_getElem?.2 ⟨i, List.getElem?_zip_eq_some.2 ⟨hx, hy⟩⟩)
    · exact .outside (not_exists.1 ha) h
  | object base fields ih =>
    by_cases ha : ∃ x, base.admission .object v = .admitted x
    · obtain ⟨x, ha⟩ := ha
      obtain ⟨rfl, xs, rfl⟩ := Base.admission_object ha
      obtain ⟨w, rfl, hr⟩ := exists_of_rel_some h
      obtain ⟨ys, rfl, hl⟩ := hr.exists_object
      exact .object fun x hx => ih x hx (hl x.1)
    · exact .outside (not_exists.1 ha) h

lemma isSome_eq {R : Json → Json → Prop} (h : s.Overlooks R v w) : v.isSome = w.isSome := by
  cases h with
  | outside _ hr => cases hr <;> rfl
  | _ => rfl

lemma agrees (h : s.Overlooks Json.Alike v w) : (s.admission v).Agrees (s.admission w) := by
  cases h with
  | outside _ hr => exact agrees_of_rel s hr
  | scalar hr => exact agrees_of_rel _ (.some hr)
  | array =>
    simp only [admission, Base.admission_some_array]
    constructor
  | object =>
    simp only [admission, Base.admission_some_object]
    constructor

lemma not_admitted (h : s.Overlooks Json.Alike v w) (ho : ∀ x, s.admission v ≠ .admitted x)
    (y : Json) : s.admission w ≠ .admitted y := by
  intro hy
  obtain ⟨x, hx⟩ := h.agrees.exists_admitted hy
  exact ho x hx

lemma part? (h : s.Overlooks Json.Alike v w) {segment : Segment}
    (ht : s.part? segment = some t) :
    t.Overlooks Json.Alike (v.bind (·.part? segment)) (w.bind (·.part? segment)) := by
  cases h with
  | outside ho hr =>
    rw [part?_outside ho ht, part?_outside (not_admitted (.outside ho hr) ho) ht]
    exact .outside (admission_none t) .none
  | scalar => cases ht
  | @array _ items xs ys hl hx =>
    cases segment with
    | field name => cases ht
    | index i =>
      obtain rfl := Option.some.inj ht
      change items.Overlooks _ xs[i]? ys[i]?
      by_cases hi : i < xs.length
      · have hx := hx i _ _ (List.getElem?_eq_getElem hi) (List.getElem?_eq_getElem (hl ▸ hi))
        rwa [List.getElem?_eq_getElem hi, List.getElem?_eq_getElem (hl ▸ hi)]
      · rw [List.getElem?_eq_none (Nat.le_of_not_lt hi),
          List.getElem?_eq_none (hl ▸ Nat.le_of_not_lt hi)]
        exact .outside (admission_none _) .none
  | object hx =>
    cases segment with
    | index i => cases ht
    | field name => exact hx _ (mem_of_lookup ht)

lemma at? (h : s.Overlooks Json.Alike v w) {q : List Segment} (ht : s.at? q = some t) :
    t.Overlooks Json.Alike (Json.at? v q) (Json.at? w q) := by
  induction q generalizing s v w with
  | nil => exact Option.some.inj ht ▸ h
  | cons segment rest ih =>
    obtain ⟨u, hu, ht⟩ := Option.bind_eq_some_iff.1 ht
    exact ih (h.part? hu) ht

lemma alike_project (hs : s.Standard) (h : s.Overlooks Json.Alike v w) :
    Option.Rel Json.Alike (s.project v) (s.project w) := by
  induction h with
  | outside ho hr =>
    rwa [project_of_not_admitted ho, project_of_not_admitted (not_admitted (.outside ho hr) ho)]
  | scalar hr => exact .some hr
  | @array base items xs ys hl _ ih =>
    rw [project_array, project_array, Option.rel_some_some, Json.alike_array,
      List.forall₂_map_left_iff, List.forall₂_map_right_iff, List.forall₂_iff_get]
    refine ⟨hl, fun i hi hi' => ?_⟩
    have hp := ih i _ _ (List.getElem?_eq_getElem hi) (List.getElem?_eq_getElem hi') hs.2
    rwa [← some_getD_project items xs[i], ← some_getD_project items ys[i],
      Option.rel_some_some] at hp
  | @object base fields xs ys _ ih =>
    obtain ⟨hn, hf⟩ := (all_object _ _ _).1 hs
    rw [project_object, project_object, Option.rel_some_some, Json.alike_object,
      names_projectFields, names_projectFields]
    refine ⟨hn.filter _, hn.filter _, fun name => ?_⟩
    rw [lookup_projectFields hn, lookup_projectFields hn]
    cases hl : fields.lookup name with
    | none => exact .none
    | some field =>
      have hm := mem_of_lookup hl
      exact ih _ hm (hf _ hm)

lemma positions_eq (h : s.Overlooks Json.Alike v w) : s.positions v = s.positions w := by
  induction h with
  | outside ho hr =>
    rw [positions_of_not_admitted ho, positions_of_not_admitted (not_admitted (.outside ho hr) ho)]
  | scalar => rfl
  | @array base items xs ys hl _ ih =>
    simp only [positions, Base.admission_some_array, Json.items]
    rw [List.flatMap_def, List.flatMap_def]
    congr 2
    apply List.ext_getElem (by simp [hl])
    intro i hi hi'
    rw [List.length_map, List.length_zipIdx] at hi hi'
    simp only [List.getElem_map, List.getElem_zipIdx,
      ih i _ _ (List.getElem?_eq_getElem hi) (List.getElem?_eq_getElem hi')]
  | @object base fields xs ys _ ih =>
    simp only [positions, Base.admission_some_object, fieldPositions_eq, Json.get?, Json.entries]
    rw [List.flatMap_congr fun x hx => congrArg _ (ih x hx)]

section Findings

variable [Monad m] [LawfulMonad m]

lemma own_eq (hs : s.Standard) (hr : s.RespectsNode) (h : s.Overlooks Json.Alike v w)
    (path : Path) : s.own v path = s.own w path := by
  have ha := h.agrees
  have hp := h.alike_project hs
  rw [own, own]
  generalize hv : s.admission v = a, hw : s.admission w = a' at ha
  cases ha with
  | admitted x y =>
    rw [project_admitted hv, project_admitted hw, Option.rel_some_some] at hp
    exact ownChecks_of_alike rfl hr hv hp path
  | _ => rfl

lemma ownAt_eq (hs : s.Standard) (hr : s.Respects) (h : s.Overlooks Json.Alike v w)
    (path q : Path) : s.ownAt v path q = s.ownAt w path q := by
  rw [ownAt, ownAt]
  cases ht : s.at? q.segments with
  | none => rfl
  | some t => exact own_eq (hs.at? ht) (hr.at? ht).node (h.at? ht) (path ++ q)

lemma findings_eq (hs : s.Standard) (hr : s.Respects) (h : s.Overlooks Json.Alike v w)
    (path : Path) : s.findings v path = s.findings w path := by
  rw [findings_eq_mapM hs, findings_eq_mapM hs, h.positions_eq,
    mapM_congr fun q _ => h.ownAt_eq hs hr path q]

end Findings

lemma names_at? (hs : s.Standard) (h : s.Overlooks Json.Alike v w) {q : List Segment}
    {base : Base m} {fields : List (String × Schema m)} {x : Json}
    (ht : s.at? q = some (Schema.object base fields))
    (ha : base.admission .object (Json.at? v q) = .admitted x) :
    ∃ xs ys, Json.at? (s.project v) q = some (.object xs) ∧
      Json.at? (s.project w) q = some (.object ys) ∧ xs.map Prod.fst = ys.map Prod.fst ∧
      (xs.map Prod.fst).Sublist (fields.map Prod.fst) := by
  have h := h.at? ht
  obtain ⟨hv, xs, rfl⟩ := Base.admission_object ha
  rw [at?_project hs ht, at?_project hs ht]
  generalize Json.at? v q = v, Json.at? w q = w at h hv ha
  cases h with
  | outside ho => exact absurd ha (ho _)
  | @object _ _ xs' ys hx =>
    obtain rfl := Json.object.inj (Option.some.inj hv)
    refine ⟨_, _, project_object .., project_object .., ?_, ?_⟩
    · rw [names_projectFields, names_projectFields]
      refine List.filter_congr fun name hm => ?_
      obtain ⟨y, hy, rfl⟩ := List.mem_map.1 hm
      rw [(hx y hy).isSome_eq]
    · rw [names_projectFields]
      exact List.filter_sublist

end Overlooks

variable [Monad m] [LawfulMonad m]

theorem validateAt_overlooks {s : Schema m} (hs : s.Standard) (hr : s.Respects)
    {v w : Option Json} (hv : ∀ x, v = some x → x.WellFormed)
    (hw : ∀ y, w = some y → y.WellFormed) (h : s.Overlooks Json.Reordered v w) (path : Path) :
    (∃ found : m Outcome, s.validateAt v path = (.ofOutcome · (s.project v)) <$> found ∧
        s.validateAt w path = (.ofOutcome · (s.project w)) <$> found) ∧
      Option.Rel Json.Alike (s.project v) (s.project w) ∧
      (∀ q base fields x, s.at? q = some (object base fields) →
        base.admission .object (Json.at? v q) = .admitted x →
        ∃ xs ys, Json.at? (s.project v) q = some (.object xs) ∧
          Json.at? (s.project w) q = some (.object ys) ∧ xs.map Prod.fst = ys.map Prod.fst ∧
          (xs.map Prod.fst).Sublist (fields.map Prod.fst)) ∧
      ∀ t : Schema m, t.BuiltIn → t.Respects := by
  have h := h.alike hv hw
  refine ⟨⟨s.findings v path, validateAt_eq hs v path, ?_⟩, ?_, ?_, fun t ht => ht.respects⟩
  · rw [validateAt_eq hs, h.findings_eq hs hr]
  · exact h.alike_project hs
  · exact fun q base fields x ht ha => h.names_at? hs ht ha

theorem validateAt_overlooks_signUp :
    let avatar := [("name", .string "ada.png"), ("type", .string "image/png"),
      ("size", .number (.whole (.ofUInt64 3))), ("tags", .array [.null])]
    let email := [("user", .string "ada"), ("host", .string "home")]
    let v := Json.object [("note", .null), ("name", .string "Ada"),
      ("emails", .array [.object email]), ("avatar", .object avatar)]
    let w := Json.object [("avatar", .object avatar.reverse), ("name", .string "Ada"),
      ("emails", .array [.object email.reverse]), ("note", .object email), ("more", .null)]
    let r : Report := signUp.validateAt (some v) .root
    let r' : Report := signUp.validateAt (some w) .root
    signUp.Standard ∧ signUp.Respects ∧ v.WellFormed ∧ w.WellFormed ∧
      signUp.Overlooks Json.Reordered (some v) (some w) ∧ r.toOutcome = r'.toOutcome ∧
      r.errors.map (·.path.display) = ["emails[0]"] ∧
      Option.Rel Json.Alike r.value r'.value := by
  intro avatar email v w r r'
  have hr : signUp.Respects := builtIn_signUp.respects
  have hv : v.WellFormed := by
    simp [v, avatar, email, Json.WellFormed, Json.WellFormedItems, Json.WellFormedEntries]
  have hw : w.WellFormed := by
    simp [w, avatar, email, Json.WellFormed, Json.WellFormedItems, Json.WellFormedEntries]
  have ho : signUp.Overlooks Json.Reordered (some v) (some w) := by
    have hn : (avatar.map Prod.fst).Nodup := by decide
    have hn' : (email.map Prod.fst).Nodup := by decide
    refine .object (List.forall_mem_cons.2 ⟨.scalar (.refl _), ?_⟩)
    refine List.forall_mem_cons.2 ⟨.of_reordered (.some (.array rfl ?_)), ?_⟩
    · exact List.forall_mem_singleton.2 (Json.reordered_of_perm (List.reverse_perm _).symm hn')
    refine List.forall_mem_cons.2 ⟨.of_reordered .none, List.forall_mem_singleton.2 ?_⟩
    exact .scalar (Json.reordered_of_perm (List.reverse_perm _).symm hn)
  obtain ⟨⟨found, hf, hf'⟩, hp, -⟩ := validateAt_overlooks standard_signUp hr
    (fun _ h => Option.some.inj h ▸ hv) (fun _ h => Option.some.inj h ▸ hw) ho .root
  refine ⟨standard_signUp, hr, hv, hw, ho, ?_, ?_, hp⟩
  · exact (congrArg Report.toOutcome hf).trans (congrArg Report.toOutcome hf').symm
  · rfl

end Schema

end Intake
