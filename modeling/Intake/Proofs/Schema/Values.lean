import Intake.Proofs.Schema.Traversal

namespace Intake

variable {m : Type → Type}

namespace Schema

lemma project_array (base : Base m) (items : Schema m) (xs : List Json) :
    (array base items).project (some (.array xs)) =
      some (.array (xs.map fun x => (items.project (some x)).getD .null)) :=
  Base.settle_admitted _ (Base.admission_some_array base xs)

lemma project_object (base : Base m) (fields : List (String × Schema m))
    (xs : List (String × Json)) : (object base fields).project (some (.object xs)) =
      some (.object (projectFields fields (.object xs))) :=
  Base.settle_admitted _ (Base.admission_some_object base xs)

lemma admission_none (s : Schema m) (w : Json) : s.admission none ≠ .admitted w :=
  fun h => nomatch input_admitted h

lemma part?_outside {s t : Schema m} {v : Option Json} {segment : Segment}
    (ho : ∀ w, s.admission v ≠ .admitted w) (ht : s.part? segment = some t) :
    v.bind (·.part? segment) = none := by
  cases s with
  | scalar kind base => cases ht
  | custom leaf => cases ht
  | array base items =>
    cases segment with
    | field name => cases ht
    | index i =>
      rcases v with _ | v
      · rfl
      · cases v with
        | array xs => exact absurd (Base.admission_some_array base xs) (ho _)
        | _ => rfl
  | object base fields =>
    cases segment with
    | index i => cases ht
    | field name =>
      rcases v with _ | v
      · rfl
      · cases v with
        | object xs => exact absurd (Base.admission_some_object base xs) (ho _)
        | _ => rfl

lemma project_none (s : Schema m) : s.project none = none :=
  project_of_not_admitted (admission_none s)

lemma part?_project {s t : Schema m} (hs : s.Proper) {segment : Segment}
    (ht : s.part? segment = some t) (v : Option Json) :
    (s.project v).bind (·.part? segment) = t.project (v.bind (·.part? segment)) := by
  by_cases ha : ∃ w, s.admission v = .admitted w
  · obtain ⟨w, ha⟩ := ha
    cases s with
    | scalar kind base => cases ht
    | custom leaf => cases ht
    | array base items =>
      obtain ⟨rfl, xs, rfl⟩ := Base.admission_array ha
      cases segment with
      | field name => cases ht
      | index i =>
        obtain rfl := Option.some.inj ht
        rw [project_array]
        change (xs.map _)[i]? = items.project xs[i]?
        rw [List.getElem?_map]
        cases xs[i]? with
        | none => exact (project_none items).symm
        | some x => exact some_getD_project items x
    | object base fields =>
      obtain ⟨rfl, xs, rfl⟩ := Base.admission_object ha
      cases segment with
      | index i => cases ht
      | field name =>
        rw [project_object]
        exact get?_projectFields hs (mem_of_lookup ht) (.object xs)
  · have ho : ∀ w, s.admission v ≠ .admitted w := not_exists.1 ha
    rw [project_of_not_admitted ho, part?_outside ho ht, project_none]

lemma at?_project {s t : Schema m} (hs : s.Standard) {q : List Segment} (ht : s.at? q = some t)
    (v : Option Json) : Json.at? (s.project v) q = t.project (Json.at? v q) := by
  induction q generalizing s v with
  | nil => exact Option.some.inj ht ▸ rfl
  | cons segment rest ih =>
    obtain ⟨u, hu, ht⟩ := Option.bind_eq_some_iff.1 ht
    rw [Json.at?_cons, part?_project hs.node hu, ih (hs.part? hu) ht, Json.at?_cons]

lemma names_projectFields (fields : List (String × Schema m)) (xs : List (String × Json)) :
    (projectFields fields (.object xs)).map Prod.fst =
      (fields.map Prod.fst).filter fun name => (xs.lookup name).isSome := by
  rw [projectFields_eq,
    names_filterMap fields fun name field => field.project ((Json.object xs).get? name)]
  simp only [project_isSome]
  rw [List.filter_map]
  rfl

mutual

def readAt (s : Schema Id) (v : Option Json) (path : Path) : Option Json :=
  match s with
  | scalar _ _ => v
  | array base items => base.settle .array v fun w => .array <| w.items.zipIdx.map fun x =>
      (items.readAt (some x.1) (path.index x.2)).getD .null
  | object base fields => base.settle .object v fun w => .object (readFieldsAt fields w path)
  | custom leaf => (Id.run (leaf.run v path)).value
termination_by structural s

def readFieldsAt (fields : List (String × Schema Id)) (w : Json) (path : Path) :
    List (String × Json) :=
  match fields with
  | [] => []
  | (name, field) :: rest =>
    match field.readAt (w.get? name) (path.field name) with
    | some x => (name, x) :: readFieldsAt rest w path
    | none => readFieldsAt rest w path
termination_by structural fields

end

lemma readFieldsAt_eq (fields : List (String × Schema Id)) (w : Json) (path : Path) :
    readFieldsAt fields w path =
      fields.filterMap fun x => (x.2.readAt (w.get? x.1) (path.field x.1)).map (x.1, ·) := by
  induction fields with
  | nil => rfl
  | cons x rest ih =>
    rw [readFieldsAt, ih, List.filterMap_cons]
    cases x.2.readAt (w.get? x.1) (path.field x.1) <;> rfl

lemma value_enter (b : Base Id) (kind : Kind) (v : Option Json) (path : Path)
    {inspect : Json → Id Report} {f : Json → Json}
    (hf : ∀ w, b.admission kind v = .admitted w → (inspect w).run.value = some (f w)) :
    (b.enter kind v path inspect).run.value = b.settle kind v f := by
  rw [Base.enter, Base.settle]
  cases ha : b.admission kind v with
  | exempt => rfl
  | refused why => rfl
  | admitted w => exact hf w ha

lemma value_conclude (b : Base Id) (parts : List Report) (w : Json) (path : Path) :
    (b.conclude parts w path).run.value = some w := rfl

theorem value_eq_readAt (s : Schema Id) (v : Option Json) (path : Path) :
    (s.validateAt v path).value = s.readAt v path := by
  induction s generalizing v path with
  | scalar kind base =>
    have he := value_enter base (.scalar kind) v path (f := id) fun w _ =>
      value_conclude base [] w path
    refine he.trans ?_
    rw [Base.settle]
    split
    · exact ((Base.admission_eq_admitted base _ v _).1 ‹_›).1.symm
    · rfl
  | custom leaf => rfl
  | array base items ih =>
    apply value_enter
    intro w _
    change some (assembleArray (Id.run (List.mapM _ _))) = _
    rw [List.idRun_mapM, assembleArray, List.map_map]
    congr 2
    apply List.map_congr_left
    intro x _
    exact congrArg (Option.getD · .null) (ih (some x.1) (path.index x.2))
  | object base fields ih =>
    apply value_enter
    intro w _
    change some (assembleObject (Id.run (validateFields fields w path))) = _
    rw [validateFields_eq, List.idRun_mapM, assembleObject, List.filterMap_map, readFieldsAt_eq]
    congr 2
    apply List.filterMap_congr
    intro x hx
    exact congrArg (Option.map (x.1, ·)) (ih x hx (w.get? x.1) (path.field x.1))

end Schema

end Intake
