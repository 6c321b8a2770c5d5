import Intake.Proofs.Schema.Positions

/-! Validation as a walk over the places of a value. -/

namespace Intake

variable {m : Type → Type}

namespace Schema

/-- One place comes before another: what is inside a place before the place, elements by position,
and fields as they are declared. -/
inductive Earlier : Schema m → List Segment → List Segment → Prop
  | whole {s segment q} : Earlier s (segment :: q) []
  | part {s t segment q q'} : s.part? segment = some t → Earlier t q q' →
      Earlier s (segment :: q) (segment :: q')
  | item {base items i j q q'} : i < j →
      Earlier (array base items) (.index i :: q) (.index j :: q')
  | field {base fields name name' q q'} : [name, name'].Sublist (fields.map Prod.fst) →
      Earlier (object base fields) (.field name :: q) (.field name' :: q')

lemma pairwise_branches (s : Schema m) (w : Json) :
    (s.branches w).Pairwise fun b b' =>
      ∀ q q', s.Earlier (b.segment :: q) (b'.segment :: q') := by
  cases s with
  | scalar kind base => exact List.Pairwise.nil
  | custom leaf => exact List.Pairwise.nil
  | array base items =>
    have hs : (w.items.zipIdx.map Prod.snd).Pairwise (· < ·) := by
      rw [List.zipIdx_map_snd]
      exact List.pairwise_lt_range'
    rw [branches, List.pairwise_map]
    exact (List.pairwise_map.1 hs).imp fun h _ _ => .item h
  | object base fields =>
    rw [branches, List.pairwise_map, List.pairwise_iff_forall_sublist]
    intro x y h q q'
    exact .field (h.map Prod.fst)

theorem pairwise_positions {s : Schema m} (hs : s.Standard) (v : Option Json) :
    (s.positions v).Pairwise fun q q' => s.Earlier q.segments q'.segments := by
  induction s using branchInduct generalizing v with
  | node s ih =>
    by_cases ha : ∃ w, s.admission v = .admitted w
    · obtain ⟨w, ha⟩ := ha
      rw [positions_admitted ha, List.pairwise_append]
      refine ⟨List.pairwise_flatMap.2 ⟨fun b hb => ?_, ?_⟩, List.pairwise_singleton _ _, ?_⟩
      · rw [List.pairwise_map]
        exact (ih w b hb (hs.branch hb) b.input).imp fun h =>
          .part (part?_branch hs.node.distinct hb) h
      · refine (pairwise_branches s w).imp fun h x hx y hy => ?_
        obtain ⟨q, _, rfl⟩ := List.mem_map.1 hx
        obtain ⟨q', _, rfl⟩ := List.mem_map.1 hy
        exact h _ _
      · intro x hx y hy
        obtain rfl := List.mem_singleton.1 hy
        obtain ⟨b, _, hx⟩ := List.mem_flatMap.1 hx
        obtain ⟨q, _, rfl⟩ := List.mem_map.1 hx
        exact .whole
    · rw [positions_of_not_admitted (not_exists.1 ha)]
      exact List.pairwise_singleton _ _

lemma All.part? {P : Schema m → Prop} {s t : Schema m} (hs : s.All P) {segment : Segment}
    (h : s.part? segment = some t) : t.All P := by
  cases s with
  | scalar kind base => cases h
  | custom leaf => cases h
  | array base items =>
    cases segment with
    | field name => cases h
    | index i =>
      obtain rfl := Option.some.inj h
      exact hs.2
  | object base fields =>
    cases segment with
    | index i => cases h
    | field name => exact ((all_object _ _ _).1 hs).2 _ (mem_of_lookup h)

lemma All.at? {P : Schema m → Prop} {s t : Schema m} (hs : s.All P) {q : List Segment}
    (h : s.at? q = some t) : t.All P := by
  induction q generalizing s with
  | nil => exact Option.some.inj h ▸ hs
  | cons segment rest ih =>
    obtain ⟨u, hu, ht⟩ := Option.bind_eq_some_iff.1 h
    exact ih (hs.part? hu) ht

lemma Earlier.ne {s : Schema m} (hs : s.Standard) {q q' : List Segment} (h : s.Earlier q q') :
    q ≠ q' := by
  induction h with
  | whole => exact List.cons_ne_nil _ _
  | part hp _ ih => exact fun he => ih (hs.part? hp) (List.cons.inj he).2
  | item hi =>
    intro he
    cases he
    exact absurd hi (Nat.lt_irrefl _)
  | field hf =>
    intro he
    cases he
    exact List.nodup_iff_sublist.1 hs.node _ hf

theorem nodup_positions {s : Schema m} (hs : s.Standard) (v : Option Json) :
    (s.positions v).Nodup :=
  (pairwise_positions hs v).imp fun h he => h.ne hs (congrArg Path.segments he)

def own [Monad m] (s : Schema m) (v : Option Json) (path : Path) : m Outcome :=
  match s.admission v with
  | .exempt => pure .pass
  | .refused why => pure (.fail (why.finding path))
  | .admitted w => s.ownChecks w path

def ownAt [Monad m] (s : Schema m) (v : Option Json) (path q : Path) : m Outcome :=
  match s.at? q.segments with
  | some t => t.own (Json.at? v q.segments) (path ++ q)
  | none => pure .pass

variable [Monad m]

lemma ownAt_root (s : Schema m) (v : Option Json) (path : Path) :
    s.ownAt v path .root = s.own v path := by
  simp [ownAt]

lemma ownAt_inside {s : Schema m} (hs : s.Proper) {w : Json} {b : Branch m}
    (hb : b ∈ s.branches w) (path q : Path) :
    s.ownAt (some w) path (.inside b.segment q) =
      b.schema.ownAt b.input (path.step b.segment) q := by
  obtain ⟨ht, hv⟩ := at?_inside hs.distinct hb q
  rw [ownAt, ownAt, ht, hv, Path.append_inside]

variable [LawfulMonad m]

lemma findings_eq_mapM {s : Schema m} (hs : s.Standard) (v : Option Json) (path : Path) :
    s.findings v path = Outcome.join <$> (s.positions v).mapM (s.ownAt v path) := by
  induction s using branchInduct generalizing v path with
  | node s ih =>
    rw [findings_eq hs]
    cases ha : s.admission v with
    | exempt =>
      rw [positions_of_not_admitted (by simp [ha])]
      simp [ownAt_root, own, ha]
    | refused why =>
      rw [positions_of_not_admitted (by simp [ha])]
      simp [ownAt_root, own, ha]
    | admitted w =>
      have hv := input_admitted ha
      subst hv
      have hb (b : Branch m) (hb : b ∈ s.branches w) :
          b.schema.findings b.input (path.step b.segment) =
            Outcome.join <$> ((b.schema.positions b.input).map (.inside b.segment)).mapM
              (s.ownAt (some w) path) := by
        rw [ih w b hb (hs.branch hb), List.mapM_map]
        exact congrArg _ (mapM_congr fun q _ => (ownAt_inside hs.node hb path q).symm)
      simp only [innerFindings, mapM_congr hb, mapM_functor_map, positions_admitted ha,
        List.mapM_append, mapM_flatMap]
      simp [ownAt_root, own, ha, Outcome.join_flatten]

lemma validateAt_eq_mapM {s : Schema m} (hs : s.Standard) (v : Option Json) (path : Path) :
    s.validateAt v path = (do
      let found ← (s.positions v).mapM (s.ownAt v path)
      return .ofOutcome (.join found) (s.project v)) := by
  rw [validateAt_eq hs, findings_eq_mapM hs]
  simp

/-- Validation goes through the places that the kinds, the flags, the fields and the value lead to,
runs the checks of each once, and reports what these find in that order. -/
theorem findings_by_position {s : Schema m} (hs : s.Standard) (v : Option Json) (path : Path) :
    s.validateAt v path = (do
        let found ← (s.bare.positions v).mapM (s.ownAt v path)
        return .ofOutcome ⟨found.flatMap Outcome.errors, found.flatMap Outcome.successes⟩
          (s.bare.project v)) ∧
      (∀ q, q ∈ s.bare.positions v ↔ s.bare.Reaches v q) ∧
      (s.bare.positions v).Pairwise (fun q q' => s.bare.Earlier q.segments q'.segments) ∧
      (s.bare.positions v).Nodup ∧
      ∀ (identifier : String) (run : Json → Path → m Outcome) (message : Option String)
        (rule : Option RuleReference) (w : Json) (p : Path),
        let r : Registration m := ⟨identifier, .custom run, message, rule⟩
        r.present <$> r.check.run w p = (fun o => ⟨
            o.errors.map fun f => ⟨f.path, f.identifier, message.getD f.message, f.rule <|> rule⟩,
            o.successes.map fun f => ⟨f.path, f.identifier, f.message, f.rule <|> rule⟩⟩) <$>
          run w p := by
  have hb := standard_bare hs
  refine ⟨?_, mem_positions_iff hb v, pairwise_positions hb v, nodup_positions hb v,
    fun _ _ _ _ _ _ => rfl⟩
  rw [positions_bare, project_bare]
  exact validateAt_eq_mapM hs v path

theorem findings_by_position_signUp :
    let listKeys (w : Json) (path : Path) : Id Outcome :=
      .fail ⟨path, "keys", ", ".intercalate (w.entries.map Prod.fst), none⟩
    let s := signUp.applyAll
      [.custom "keys" listKeys, .message "Odd.", .custom "again" listKeys, .rule ⟨"isOdd", none⟩]
    let v := Json.object [("note", .null),
      ("emails", .array [.string "ada@home", .string "ada@home.org", .null]),
      ("age", .string "old"), ("avatar", .null)]
    let path := Path.root.field "account"
    s.Standard ∧
      (s.validateAt (some v) path).errors =
        [⟨path.field "name", "required", "Required.", none⟩,
          ⟨(path.field "emails").index 0, "invalidEmailAddress", "Invalid email address.", none⟩,
          ⟨(path.field "emails").index 2, "required", "Required.", none⟩,
          ⟨path.field "age", "invalidType", "Expected number, received string", none⟩,
          ⟨path, "keys", "Odd.", none⟩,
          ⟨path, "keys", "emails, age, avatar", some ⟨"isOdd", none⟩⟩] ∧
      (s.validateAt (some v) path).successes =
        [⟨(path.field "emails").index 1, "validEmailAddress", "Valid email address.", none⟩] := by
  intro listKeys s v path
  have hs : s.Standard := standard_applyAll standard_signUp (by simp)
  obtain ⟨h, -⟩ := findings_by_position hs (some v) path
  refine ⟨hs, (congrArg (fun r : Report => r.errors) h).trans ?_,
    (congrArg (fun r : Report => r.successes) h).trans ?_⟩
  · rfl
  · rfl

section Pure

variable {s : Schema Id}

lemma value_validateAt (hs : s.Standard) (v : Option Json) (path : Path) :
    (s.validateAt v path).value = s.project v := by
  rw [validateAt_eq hs]
  rfl

lemma toOutcome_validateAt (hs : s.Standard) (v : Option Json) (path : Path) :
    (s.validateAt v path).toOutcome = Outcome.join ((s.positions v).map (s.ownAt v path)) :=
  (findings_eq_mapM hs v path).trans (congrArg Outcome.join List.idRun_mapM)

end Pure

end Schema

end Intake
