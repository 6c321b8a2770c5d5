import Intake.Proofs.Schema.Traversal

namespace Intake

variable {m : Type → Type}

namespace Schema

lemma admission_assembled {s : Schema m} {v : Option Json} {w : Json}
    (h : s.admission v = .admitted w) :
    s.admission (some (s.assembled w)) = .admitted (s.assembled w) := by
  cases s with
  | scalar kind base =>
    have hv := input_admitted h
    subst hv
    exact h
  | custom leaf => cases h
  | array base items => exact Base.admission_some_array base _
  | object base fields => exact Base.admission_some_object base _

lemma branches_assembled {s : Schema m} (hs : s.Proper) (w : Json) :
    s.branches (s.assembled w) =
      (s.branches w).map fun b => { b with input := b.schema.project b.input } := by
  cases s with
  | scalar kind base => rfl
  | custom leaf => rfl
  | array base items =>
    simp only [branches, assembled, Json.items, List.zipIdx_map, List.map_map]
    exact List.map_congr_left fun x _ => by
      simp only [Function.comp_apply, Prod.map_fst, Prod.map_snd, id_eq, some_getD_project]
  | object base fields =>
    simp only [branches, assembled, List.map_map]
    exact List.map_congr_left fun x hx => by
      simp only [Function.comp_apply, get?_projectFields hs hx]

lemma assembled_assembled {s : Schema m} (hs : s.Standard)
    (hp : ∀ w, ∀ b ∈ s.branches w, b.schema.project (b.schema.project b.input) =
      b.schema.project b.input) (w : Json) : s.assembled (s.assembled w) = s.assembled w := by
  cases s with
  | scalar kind base => rfl
  | custom leaf => rfl
  | array base items =>
    simp only [assembled, Json.items, List.map_map, Json.array.injEq]
    refine List.map_congr_left fun x hx => ?_
    obtain ⟨i, hi⟩ := List.mem_iff_getElem?.1 hx
    have hx := hp w _ (mem_branches_array.2 ⟨x, i, hi, rfl⟩)
    simp only [Function.comp_apply, some_getD_project, hx]
  | object base fields =>
    simp only [assembled, Json.object.injEq]
    rw [projectFields_eq, projectFields_eq]
    refine List.filterMap_congr fun x hx => ?_
    have hb := hp w _ (mem_branches_object.2 ⟨x.1, x.2, hx, rfl⟩)
    rw [← projectFields_eq, get?_projectFields hs.node hx, hb]

theorem project_project {s : Schema m} (hs : s.Standard) (v : Option Json) :
    s.project (s.project v) = s.project v := by
  induction s using branchInduct generalizing v with
  | node s ih =>
    by_cases ha : ∃ w, s.admission v = .admitted w
    · obtain ⟨w, ha⟩ := ha
      rw [project_admitted ha, project_admitted (admission_assembled ha), assembled_assembled hs
        fun w b hb => ih w b hb (hs.branch hb) _]
    · rw [project_of_not_admitted (not_exists.1 ha), project_of_not_admitted (not_exists.1 ha)]

lemma findings_project [Monad m] [LawfulMonad m] {s : Schema m} (hs : s.Standard)
    (v : Option Json) (path : Path) : s.findings (s.project v) path = s.findings v path := by
  induction s using branchInduct generalizing v path with
  | node s ih =>
    by_cases ha : ∃ w, s.admission v = .admitted w
    · obtain ⟨w, ha⟩ := ha
      have hw : s.assembled (s.assembled w) = s.assembled w :=
        assembled_assembled hs (fun w b hb => project_project (hs.branch hb) _) w
      have hb (b : Branch m) (hb : b ∈ s.branches w) :
          b.schema.findings (b.schema.project b.input) (path.step b.segment) =
            b.schema.findings b.input (path.step b.segment) :=
        ih w b hb (hs.branch hb) _ _
      rw [project_admitted ha, findings_eq hs, findings_eq hs, admission_assembled ha, ha]
      simp only [innerFindings, ownChecks, branches_assembled hs.node, hw, List.mapM_map,
        Function.comp_def, mapM_congr hb]
    · rw [project_of_not_admitted (not_exists.1 ha)]

theorem validateAt_project [Monad m] [LawfulMonad m] {s : Schema m} (hs : s.Standard)
    (v : Option Json) (path : Path) : s.validateAt (s.project v) path = s.validateAt v path := by
  rw [validateAt_eq hs, validateAt_eq hs, findings_project hs, project_project hs]

theorem validateAt_value {s : Schema Id} (hs : s.Standard) (v : Option Json) (path : Path) :
    s.validateAt (s.validateAt v path).value path = s.validateAt v path := by
  rw [value_validateAt hs, validateAt_project hs]

theorem validateAt_value_signUp :
    let v := Json.object [("note", .null), ("emails", .array [.string "ada@home", .null]),
      ("name", .string "Ada")]
    let w := Json.object [("name", .string "Ada"), ("emails", .array [.string "ada@home", .null])]
    signUp.Standard ∧ (signUp.validateAt (some v) .root).value = some w ∧
      signUp.validateAt (some w) .root = signUp.validateAt (some v) .root := by
  intro v w
  exact ⟨standard_signUp, rfl, validateAt_value standard_signUp (some v) .root⟩

end Schema

end Intake
