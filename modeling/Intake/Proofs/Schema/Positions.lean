import Intake.Proofs.Schema.Branches

namespace Intake

def Path.inside (segment : Segment) (q : Path) : Path := ⟨segment :: q.segments⟩

namespace Path

@[simp] lemma segments_root : root.segments = [] := rfl

@[simp] lemma segments_inside (segment : Segment) (q : Path) :
    (inside segment q).segments = segment :: q.segments := rfl

@[simp] lemma segments_step (p : Path) (segment : Segment) :
    (p.step segment).segments = p.segments ++ [segment] := rfl

@[simp] lemma append_root (p : Path) : p ++ root = p :=
  congrArg Path.mk (List.append_nil p.segments)

lemma append_inside (p : Path) (segment : Segment) (q : Path) :
    p ++ inside segment q = p.step segment ++ q :=
  congrArg Path.mk (List.append_assoc p.segments [segment] q.segments).symm

end Path

variable {m : Type → Type}

namespace Schema

mutual

def positions (s : Schema m) (v : Option Json) : List Path :=
  match s with
  | scalar _ _ | custom _ => [.root]
  | array base items =>
    match base.admission .array v with
    | .admitted w => (w.items.zipIdx.flatMap fun x =>
        (items.positions (some x.1)).map (.inside (.index x.2))) ++ [.root]
    | _ => [.root]
  | object base fields =>
    match base.admission .object v with
    | .admitted w => fieldPositions fields w ++ [.root]
    | _ => [.root]
termination_by structural s

def fieldPositions (fields : List (String × Schema m)) (w : Json) : List Path :=
  match fields with
  | [] => []
  | (name, field) :: rest =>
    (field.positions (w.get? name)).map (.inside (.field name)) ++ fieldPositions rest w
termination_by structural fields

end

lemma fieldPositions_eq (fields : List (String × Schema m)) (w : Json) :
    fieldPositions fields w =
      fields.flatMap fun x => (x.2.positions (w.get? x.1)).map (.inside (.field x.1)) := by
  induction fields with
  | nil => rfl
  | cons x rest ih => rw [fieldPositions, ih, List.flatMap_cons]

lemma positions_admitted {s : Schema m} {v : Option Json} {w : Json}
    (h : s.admission v = .admitted w) :
    s.positions v = ((s.branches w).flatMap fun b =>
      (b.schema.positions b.input).map (.inside b.segment)) ++ [.root] := by
  cases s with
  | scalar kind base => rfl
  | custom leaf => rfl
  | array base items =>
    simp only [admission] at h
    simp only [positions, h, branches, List.flatMap_map]
  | object base fields =>
    simp only [admission] at h
    simp only [positions, h, branches, List.flatMap_map, fieldPositions_eq]

lemma positions_of_not_admitted {s : Schema m} {v : Option Json}
    (h : ∀ w, s.admission v ≠ .admitted w) : s.positions v = [.root] := by
  cases s with
  | scalar kind base => rfl
  | custom leaf => rfl
  | array base items =>
    simp only [positions]
    split
    · exact absurd ‹_› (h _)
    · rfl
  | object base fields =>
    simp only [positions]
    split
    · exact absurd ‹_› (h _)
    · rfl

lemma positions_bare (s : Schema m) (v : Option Json) : s.bare.positions v = s.positions v := by
  induction s generalizing v with
  | scalar kind base => rfl
  | custom leaf => rfl
  | array base items ih => simp only [bare, positions, ih, Base.admission_bare]
  | object base fields ih =>
    have hf (w : Json) : fieldPositions (fields.map fun x => (x.1, x.2.bare)) w =
        fieldPositions fields w := by
      rw [fieldPositions_eq, fieldPositions_eq, List.flatMap_map]
      exact List.flatMap_congr fun x hx => by simp only [ih x hx]
    simp only [bare_object, positions, hf, Base.admission_bare]

lemma mem_positions {s : Schema m} {v : Option Json} {q : Path} :
    q ∈ s.positions v ↔ q = .root ∨ ∃ w, s.admission v = .admitted w ∧
      ∃ b ∈ s.branches w, ∃ q' ∈ b.schema.positions b.input, .inside b.segment q' = q := by
  by_cases ha : ∃ w, s.admission v = .admitted w
  · obtain ⟨w, ha⟩ := ha
    simp only [positions_admitted ha, List.mem_append, List.mem_flatMap, List.mem_map,
      List.mem_singleton, ha, Admission.admitted.injEq, exists_eq_left']
    exact or_comm
  · rw [positions_of_not_admitted (not_exists.1 ha), List.mem_singleton]
    refine ⟨Or.inl, fun h => h.resolve_right ?_⟩
    rintro ⟨w, hw, _⟩
    exact ha ⟨w, hw⟩

lemma root_mem_positions (s : Schema m) (v : Option Json) : .root ∈ s.positions v :=
  mem_positions.2 (Or.inl rfl)

lemma input_admitted {s : Schema m} {v : Option Json} {w : Json}
    (h : s.admission v = .admitted w) : v = some w := by
  cases s with
  | custom leaf => cases h
  | _ => exact ((Base.admission_eq_admitted _ _ v w).1 h).1

lemma at?_inside {s : Schema m} (hs : s.Distinct) {w : Json} {b : Branch m}
    (hb : b ∈ s.branches w) (q : Path) :
    s.at? (Path.inside b.segment q).segments = b.schema.at? q.segments ∧
      Json.at? (some w) (Path.inside b.segment q).segments = Json.at? b.input q.segments := by
  simp [part?_branch hs hb, input_branch hb]

/-- The places that are got to: the root, and the parts of a place that lets its value in. -/
inductive Reaches (s : Schema m) (v : Option Json) : Path → Prop
  | root : Reaches s v .root
  | field {q base fields w name} : Reaches s v q → s.at? q.segments = some (object base fields) →
      base.admission .object (Json.at? v q.segments) = .admitted w → name ∈ fields.map Prod.fst →
      Reaches s v (q.field name)
  | index {q base items xs i} : Reaches s v q → s.at? q.segments = some (array base items) →
      base.admission .array (Json.at? v q.segments) = .admitted (.array xs) → i < xs.length →
      Reaches s v (q.index i)

lemma Reaches.branch {s t : Schema m} {v : Option Json} {q : Path} {w : Json} {b : Branch m}
    (h : s.Reaches v q) (ht : s.at? q.segments = some t)
    (hw : t.admission (Json.at? v q.segments) = .admitted w) (hb : b ∈ t.branches w) :
    s.Reaches v (q.step b.segment) := by
  cases t with
  | scalar kind base => exact absurd hb List.not_mem_nil
  | custom leaf => exact absurd hb List.not_mem_nil
  | array base items =>
    obtain ⟨item, i, hi, rfl⟩ := mem_branches_array.1 hb
    obtain ⟨_, xs, rfl⟩ := Base.admission_array hw
    exact h.index ht hw (List.getElem?_eq_some_iff.1 hi).1
  | object base fields =>
    obtain ⟨name, field, hx, rfl⟩ := mem_branches_object.1 hb
    exact h.field ht hw (List.mem_map_of_mem hx)

lemma Reaches.inside {s : Schema m} (hs : s.Proper) {v : Option Json} {w : Json} {b : Branch m}
    (hw : s.admission v = .admitted w) (hb : b ∈ s.branches w) {q : Path}
    (h : b.schema.Reaches b.input q) : s.Reaches v (.inside b.segment q) := by
  have hv := input_admitted hw
  subst hv
  induction h with
  | root => exact Reaches.root.branch rfl hw hb
  | @field q base fields w' name _ hq ha hn ih =>
    obtain ⟨hs', hv'⟩ := at?_inside hs.distinct hb q
    exact ih.field (hs'.trans hq) (by rwa [hv']) hn
  | @index q base items xs i _ hq ha hi ih =>
    obtain ⟨hs', hv'⟩ := at?_inside hs.distinct hb q
    exact ih.index (hs'.trans hq) (by rwa [hv']) hi

lemma reaches_of_mem_positions {s : Schema m} (hs : s.Standard) {v : Option Json} {q : Path}
    (h : q ∈ s.positions v) : s.Reaches v q := by
  induction s using branchInduct generalizing v q with
  | node s ih =>
    rcases mem_positions.1 h with rfl | ⟨w, ha, b, hb, q', hq, rfl⟩
    · exact .root
    · exact .inside hs.node ha hb (ih w b hb (hs.branch hb) hq)

lemma step_mem_positions {s t : Schema m} (hs : s.Standard) {v : Option Json} {q : Path} {w : Json}
    {b : Branch m} (h : q ∈ s.positions v) (ht : s.at? q.segments = some t)
    (hw : t.admission (Json.at? v q.segments) = .admitted w) (hb : b ∈ t.branches w) :
    q.step b.segment ∈ s.positions v := by
  induction s using branchInduct generalizing v q with
  | node s ih =>
    rcases mem_positions.1 h with rfl | ⟨w', ha, b', hb', q', hq, rfl⟩
    · obtain rfl := Option.some.inj ht
      exact mem_positions.2 (Or.inr ⟨w, hw, b, hb, .root, root_mem_positions _ _, rfl⟩)
    · have hv := input_admitted ha
      subst hv
      obtain ⟨hs', hv'⟩ := at?_inside hs.node.distinct hb' q'
      have hq' : q'.step b.segment ∈ b'.schema.positions b'.input :=
        ih w' b' hb' (hs.branch hb') hq (hs'.symm.trans ht) (by rwa [← hv'])
      exact mem_positions.2 (Or.inr ⟨w', ha, b', hb', _, hq', rfl⟩)

theorem mem_positions_iff {s : Schema m} (hs : s.Standard) (v : Option Json) (q : Path) :
    q ∈ s.positions v ↔ s.Reaches v q := by
  constructor
  · exact reaches_of_mem_positions hs
  · intro h
    induction h with
    | root => exact root_mem_positions s v
    | @field q base fields w name _ hq ha hn ih =>
      obtain ⟨x, hx, rfl⟩ := List.mem_map.1 hn
      exact step_mem_positions hs ih hq ha (mem_branches_object.2 ⟨x.1, x.2, hx, rfl⟩)
    | @index q base items xs i _ hq ha hi ih =>
      exact step_mem_positions hs ih hq ha
        (mem_branches_array.2 ⟨xs[i], i, List.getElem?_eq_getElem hi, rfl⟩)

end Schema

end Intake
