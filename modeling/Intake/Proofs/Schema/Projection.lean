import Intake.Proofs.Schema.Trees
import Intake.Schema.Validate

namespace Intake

variable {m : Type → Type}

namespace Json

lemma isNull_iff {v : Json} : v.isNull = true ↔ v = .null := by
  cases v <;> simp [isNull]

lemma isEmptyText_iff {v : Json} : v.isEmptyText = true ↔ v = .string "" := by
  cases v <;> simp [isEmptyText]

end Json

namespace Kind

def Describes : Kind → Json → Prop
  | scalar .string, v => ∃ s, v = .string s
  | scalar .number, v => ∃ n, v = .number n
  | scalar .boolean, v => ∃ b, v = .bool b
  | scalar .file, v => ∃ file, FileInfo.ofJson? v = some file
  | array, v => ∃ items, v = .array items
  | object, v => ∃ entries, v = .object entries

lemma accepts_iff (kind : Kind) (v : Json) : kind.accepts v = true ↔ kind.Describes v := by
  cases kind with
  | scalar kind =>
    cases kind with
    | file => exact Option.isSome_iff_exists
    | _ => cases v <;> simp [accepts, Describes]
  | _ => cases v <;> simp [accepts, Describes]

end Kind

namespace Base

lemma admission_eq_admitted (b : Base m) (kind : Kind) (v : Option Json) (w : Json) :
    b.admission kind v = .admitted w ↔ v = some w ∧ w.isNull = false ∧
      (w.isEmptyText && !b.optional) = false ∧ kind.accepts w = true := by
  cases v with
  | none => cases ho : b.optional <;> simp [admission, ho]
  | some v =>
    constructor
    · intro h
      rw [admission] at h
      by_cases hn : v.isNull = true
      · simp only [hn, if_true] at h
        split at h <;> cases h
      · by_cases he : (v.isEmptyText && !b.optional) = true
        · simp only [hn, he, if_true] at h
          cases h
        · by_cases hk : kind.accepts v = true
          · simp only [hn, he, hk, if_true] at h
            cases h
            exact ⟨rfl, Bool.eq_false_iff.2 hn, Bool.eq_false_iff.2 he, hk⟩
          · simp only [hn, he, hk] at h
            cases h
    · rintro ⟨hv, hn, he, hk⟩
      cases hv
      rw [admission]
      simp only [hn, he, hk, if_true, Bool.false_eq_true, if_false]

lemma admission_eq_exempt (b : Base m) (kind : Kind) (v : Option Json) :
    b.admission kind v = .exempt ↔ v = none ∧ b.optional = true ∨
      v = some .null ∧ (b.optional = true ∨ b.nullable = true) := by
  cases v with
  | none => cases ho : b.optional <;> simp [admission, ho]
  | some v =>
    by_cases hn : v.isNull = true
    · obtain rfl := Json.isNull_iff.1 hn
      by_cases hf : (b.optional || b.nullable) = true
      · simp only [admission, hn, hf, if_true, true_iff]
        exact Or.inr ⟨trivial, by simpa using hf⟩
      · simp only [admission, hn, hf, if_true]
        simpa using hf
    · have hv : v ≠ .null := fun he => hn (Json.isNull_iff.2 he)
      simp only [admission, hn, Bool.false_eq_true, if_false, Option.some.injEq, hv, false_and,
        or_false, reduceCtorEq, iff_false]
      split_ifs <;> simp

lemma admission_array {b : Base m} {v : Option Json} {w : Json}
    (h : b.admission .array v = .admitted w) : v = some w ∧ ∃ xs, w = .array xs := by
  obtain ⟨hv, _, _, hk⟩ := (admission_eq_admitted b _ v w).1 h
  exact ⟨hv, (Kind.accepts_iff .array w).1 hk⟩

lemma admission_object {b : Base m} {v : Option Json} {w : Json}
    (h : b.admission .object v = .admitted w) : v = some w ∧ ∃ xs, w = .object xs := by
  obtain ⟨hv, _, _, hk⟩ := (admission_eq_admitted b _ v w).1 h
  exact ⟨hv, (Kind.accepts_iff .object w).1 hk⟩

@[simp] lemma admission_some_array (b : Base m) (xs : List Json) :
    b.admission .array (some (.array xs)) = .admitted (.array xs) :=
  (admission_eq_admitted b _ _ _).2 ⟨rfl, rfl, rfl, rfl⟩

@[simp] lemma admission_some_object (b : Base m) (xs : List (String × Json)) :
    b.admission .object (some (.object xs)) = .admitted (.object xs) :=
  (admission_eq_admitted b _ _ _).2 ⟨rfl, rfl, rfl, rfl⟩

def settle (b : Base m) (kind : Kind) (v : Option Json) (f : Json → Json) : Option Json :=
  match b.admission kind v with
  | .admitted w => some (f w)
  | _ => v

lemma settle_admitted {b : Base m} {kind : Kind} {v : Option Json} {w : Json} (f : Json → Json)
    (h : b.admission kind v = .admitted w) : b.settle kind v f = some (f w) := by
  simp [settle, h]

lemma settle_isSome (b : Base m) (kind : Kind) (v : Option Json) (f : Json → Json) :
    (b.settle kind v f).isSome = v.isSome := by
  rw [settle]
  split
  · obtain ⟨rfl, _⟩ := (admission_eq_admitted b kind v _).1 ‹_›
    rfl
  · rfl

def bare (b : Base m) : Base Id := ⟨b.optional, b.nullable, none, .empty, []⟩

@[simp] lemma admission_bare (b : Base m) (kind : Kind) (v : Option Json) :
    b.bare.admission kind v = b.admission kind v := rfl

@[simp] lemma settle_bare (b : Base m) (kind : Kind) (v : Option Json) (f : Json → Json) :
    b.bare.settle kind v f = b.settle kind v f := rfl

end Base

namespace Schema

def admission : Schema m → Option Json → Admission
  | scalar kind base, v => base.admission (.scalar kind) v
  | array base _, v => base.admission .array v
  | object base _, v => base.admission .object v
  | custom _, _ => .exempt

mutual

def project (s : Schema m) (v : Option Json) : Option Json :=
  match s with
  | scalar _ _ | custom _ => v
  | array base items => base.settle .array v fun w =>
    .array (w.items.map fun item => (items.project (some item)).getD .null)
  | object base fields => base.settle .object v fun w => .object (projectFields fields w)
termination_by structural s

def projectFields (fields : List (String × Schema m)) (w : Json) : List (String × Json) :=
  match fields with
  | [] => []
  | (name, field) :: rest =>
    match field.project (w.get? name) with
    | some x => (name, x) :: projectFields rest w
    | none => projectFields rest w
termination_by structural fields

end

def assembled : Schema m → Json → Json
  | scalar _ _, w | custom _, w => w
  | array _ items, w => .array (w.items.map fun item => (items.project (some item)).getD .null)
  | object _ fields, w => .object (projectFields fields w)

lemma projectFields_eq (fields : List (String × Schema m)) (w : Json) :
    projectFields fields w =
      fields.filterMap fun x => (x.2.project (w.get? x.1)).map (x.1, ·) := by
  induction fields with
  | nil => rfl
  | cons x rest ih =>
    rw [projectFields, ih, List.filterMap_cons]
    cases x.2.project (w.get? x.1) <;> rfl

lemma lookup_projectFields {fields : List (String × Schema m)}
    (hn : (fields.map Prod.fst).Nodup) (w : Json) (name : String) :
    (projectFields fields w).lookup name =
      (fields.lookup name).bind fun field => field.project (w.get? name) := by
  rw [projectFields_eq]
  exact lookup_filterMap hn (fun name field => field.project (w.get? name)) name

lemma get?_projectFields {fields : List (String × Schema m)}
    (hn : (fields.map Prod.fst).Nodup) {x : String × Schema m} (hx : x ∈ fields) (w : Json) :
    (Json.object (projectFields fields w)).get? x.1 = x.2.project (w.get? x.1) := by
  rw [Json.get?, Json.entries, lookup_projectFields hn, lookup_of_mem hn hx]
  rfl

lemma project_admitted {s : Schema m} {v : Option Json} {w : Json}
    (h : s.admission v = .admitted w) : s.project v = some (s.assembled w) := by
  cases s with
  | scalar kind base => exact ((Base.admission_eq_admitted base _ v w).1 h).1
  | array base items => exact Base.settle_admitted _ h
  | object base fields => exact Base.settle_admitted _ h
  | custom leaf => exact absurd h (by simp [admission])

lemma project_of_not_admitted {s : Schema m} {v : Option Json}
    (h : ∀ w, s.admission v ≠ .admitted w) : s.project v = v := by
  cases s with
  | scalar kind base => rfl
  | custom leaf => rfl
  | array base items =>
    simp only [project, Base.settle]
    split
    · exact absurd ‹_› (h _)
    · rfl
  | object base fields =>
    simp only [project, Base.settle]
    split
    · exact absurd ‹_› (h _)
    · rfl

lemma project_isSome (s : Schema m) (v : Option Json) : (s.project v).isSome = v.isSome := by
  cases s with
  | scalar kind base => rfl
  | array base items => exact Base.settle_isSome _ _ _ _
  | object base fields => exact Base.settle_isSome _ _ _ _
  | custom leaf => rfl

lemma some_getD_project (s : Schema m) (w : Json) :
    some ((s.project (some w)).getD .null) = s.project (some w) := by
  obtain ⟨x, hx⟩ := Option.isSome_iff_exists.1 (project_isSome s (some w))
  rw [hx, Option.getD_some]

mutual

def bare : Schema m → Schema Id
  | scalar kind base => scalar kind base.bare
  | array base items => array base.bare items.bare
  | object base fields => object base.bare (bareFields fields)
  | custom leaf => custom ⟨leaf.typeName, .empty, none, fun v _ => .valid v⟩

def bareFields : List (String × Schema m) → List (String × Schema Id)
  | [] => []
  | (name, field) :: rest => (name, field.bare) :: bareFields rest

end

lemma bareFields_eq (fields : List (String × Schema m)) :
    bareFields fields = fields.map fun x => (x.1, x.2.bare) := by
  induction fields with
  | nil => rfl
  | cons x rest ih => rw [bareFields, ih, List.map_cons]

@[simp] lemma bare_object (base : Base m) (fields : List (String × Schema m)) :
    (object base fields).bare = object base.bare (fields.map fun x => (x.1, x.2.bare)) := by
  rw [bare, bareFields_eq]

lemma standard_bare {s : Schema m} (hs : s.Standard) : s.bare.Standard := by
  induction s with
  | scalar kind base => trivial
  | array base items ih => exact ⟨trivial, ih hs.2⟩
  | object base fields ih =>
    obtain ⟨hn, hf⟩ := (all_object _ _ _).1 hs
    rw [bare_object]
    refine (all_object _ _ _).2 ⟨?_, fun x hx => ?_⟩
    · simpa only [Proper, List.map_map, Function.comp_def] using hn
    · obtain ⟨y, hy, rfl⟩ := List.mem_map.1 hx
      exact ih y hy (hf y hy)
  | custom leaf => exact hs.elim

lemma admission_bare (s : Schema m) (v : Option Json) : s.bare.admission v = s.admission v := by
  cases s <;> rfl

lemma part?_bare (s : Schema m) (segment : Segment) :
    s.bare.part? segment = (s.part? segment).map bare := by
  cases s with
  | object base fields =>
    cases segment with
    | field name =>
      rw [bare_object]
      exact lookup_map_snd bare fields name
    | index i => rfl
  | _ => cases segment <;> rfl

lemma at?_bare (s : Schema m) (q : List Segment) : s.bare.at? q = (s.at? q).map bare := by
  induction q generalizing s with
  | nil => rfl
  | cons segment rest ih =>
    rw [at?_cons, at?_cons, part?_bare]
    cases s.part? segment with
    | none => rfl
    | some t => exact ih t

lemma project_bare (s : Schema m) (v : Option Json) : s.bare.project v = s.project v := by
  induction s generalizing v with
  | scalar kind base => rfl
  | array base items ih => simp only [bare, project, ih, Base.settle_bare]
  | object base fields ih =>
    have hf (w : Json) : projectFields (fields.map fun x => (x.1, x.2.bare)) w =
        projectFields fields w := by
      rw [projectFields_eq, projectFields_eq, List.filterMap_map]
      exact List.filterMap_congr fun x hx => by simp only [Function.comp_apply, ih x hx]
    simp only [bare_object, project, hf, Base.settle_bare]
  | custom leaf => rfl

end Schema

end Intake
