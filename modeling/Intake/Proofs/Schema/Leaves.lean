import Intake.Proofs.Schema.Matching
import Intake.Proofs.Schema.Values

namespace Intake

namespace Schema

def foundByLeaf : Schema Id → Option Json → Path → Outcome
  | custom leaf, v, path => (leaf.run v path).toOutcome
  | _, _, _ => .pass

def found (s : Schema Id) (v : Option Json) (path : Path) : Outcome :=
  match s.admission v with
  | .exempt => s.foundByLeaf v path
  | .refused why => .fail (why.finding path)
  | .admitted _ =>
    .join (s.base.registrations.map fun r => r.run ((s.readAt v path).getD .null) path)

def foundAt (s : Schema Id) (v : Option Json) (path q : Path) : Outcome :=
  match s.at? q.segments with
  | some t => t.found (Json.at? v q.segments) (path ++ q)
  | none => .pass

lemma foundAt_root (s : Schema Id) (v : Option Json) (path : Path) :
    s.foundAt v path .root = s.found v path := by
  simp [foundAt]

lemma foundAt_inside {s : Schema Id} (hs : s.Distinct) {w : Json} {b : Branch Id}
    (hb : b ∈ s.branches w) (path q : Path) :
    s.foundAt (some w) path (.inside b.segment q) =
      b.schema.foundAt b.input (path.step b.segment) q := by
  obtain ⟨ht, hv⟩ := at?_inside hs hb q
  rw [foundAt, foundAt, ht, hv, Path.append_inside]

lemma findings_of_not_admitted {s : Schema Id} {v : Option Json} (path : Path)
    (ha : ∀ w, s.admission v ≠ .admitted w) : s.findings v path = s.found v path := by
  rw [found]
  cases h : s.admission v with
  | admitted w => exact absurd h (ha w)
  | refused why => exact congrArg Report.toOutcome (validateAt_refused path h)
  | exempt =>
    cases s with
    | custom leaf => rfl
    | _ =>
      simp only [admission] at h
      simp only [findings, validateAt, Base.enter, h]
      rfl

lemma exists_conclude {s : Schema Id} {v : Option Json} {w : Json} (h : s.admission v = .admitted w)
    (path : Path) : ∃ parts x, s.validateAt v path = s.base.conclude parts x path ∧
      parts.map Report.toOutcome =
        (s.branches w).map fun b => b.schema.findings b.input (path.step b.segment) := by
  cases s with
  | custom leaf => cases h
  | scalar kind base =>
    simp only [admission] at h
    refine ⟨[], w, ?_, rfl⟩
    simp only [validateAt, Base.enter, h, Schema.base]
  | array base items =>
    simp only [admission] at h
    have he := validateAt_array base items v path
    rw [Base.enter, h] at he
    refine ⟨items.elements w path, _, he, ?_⟩
    rw [elements, branches, List.map_map, List.map_map]
    rfl
  | object base fields =>
    simp only [admission] at h
    have he := validateAt_object base fields v path
    rw [Base.enter, h] at he
    refine ⟨members fields w path, _, he, ?_⟩
    rw [members, branches, List.map_map, List.map_map]
    rfl

lemma findings_admitted {s : Schema Id} {v : Option Json} {w : Json}
    (h : s.admission v = .admitted w) (path : Path) : s.findings v path =
      .join ((s.branches w).map fun b => b.schema.findings b.input (path.step b.segment)) ++
        s.found v path := by
  obtain ⟨parts, x, hr, hp⟩ := exists_conclude h path
  have hv := value_eq_readAt s v path
  rw [hr, Base.conclude_pure] at hv
  rw [found, h, ← hv, ← hp, findings, hr, Base.conclude_pure]
  rfl

theorem findings_eq_join {s : Schema Id} (hs : s.All Distinct) (v : Option Json) (path : Path) :
    s.findings v path = .join ((s.positions v).map (s.foundAt v path)) := by
  induction s using branchInduct generalizing v path with
  | node s ih =>
    by_cases ha : ∃ w, s.admission v = .admitted w
    · obtain ⟨w, ha⟩ := ha
      obtain rfl := input_admitted ha
      have hb (b : Branch Id) (hb : b ∈ s.branches w) :
          b.schema.findings b.input (path.step b.segment) =
            .join (((b.schema.positions b.input).map (.inside b.segment)).map
              (s.foundAt (some w) path)) := by
        rw [ih w b hb (hs.branch hb), List.map_map]
        exact congrArg _ (List.map_congr_left fun q _ => (foundAt_inside hs.node hb path q).symm)
      rw [findings_admitted ha, List.map_congr_left hb, positions_admitted ha, List.map_append,
        Outcome.join_append, List.map_flatMap, List.flatMap_def, Outcome.join_flatten, List.map_map,
        List.map_singleton, foundAt_root, Outcome.join_cons, Outcome.join_nil, Outcome.append_pass]
      rfl
    · have ha := not_exists.1 ha
      rw [findings_of_not_admitted path ha, positions_of_not_admitted ha, List.map_singleton,
        foundAt_root, Outcome.join_cons, Outcome.join_nil, Outcome.append_pass]

end Schema

end Intake
