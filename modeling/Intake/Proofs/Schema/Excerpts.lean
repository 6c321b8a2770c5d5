import Intake.Proofs.Schema.Locality

/-! The part of a report that concerns one place of a value and what lies inside it. -/

namespace Intake

namespace Path

def Encloses (q p : Path) : Prop := q.segments <+: p.segments

instance (q p : Path) : Decidable (q.Encloses p) :=
  inferInstanceAs (Decidable (q.segments <+: p.segments))

lemma eq_of_segments_eq {p q : Path} (h : p.segments = q.segments) : p = q := by
  cases p
  cases q
  exact congrArg mk h

lemma encloses_append_iff (path q p : Path) : (path ++ q).Encloses (path ++ p) ↔ q.Encloses p :=
  List.prefix_append_right_inj _

lemma inside_encloses_iff (segment segment' : Segment) (q p : Path) :
    (inside segment q).Encloses (inside segment' p) ↔ segment = segment' ∧ q.Encloses p :=
  List.cons_prefix_cons

end Path

namespace Outcome

def kept (o : Outcome) (P : Path → Bool) : Outcome where
  errors := o.errors.filter fun f => P f.path
  successes := o.successes.filter fun f => P f.path

def within (o : Outcome) (q : Path) : Outcome := o.kept fun p => q.Encloses p

lemma kept_append (a b : Outcome) (P : Path → Bool) : (a ++ b).kept P = a.kept P ++ b.kept P :=
  congrArg₂ Outcome.mk (List.filter_append ..) (List.filter_append ..)

lemma LiesAt.kept_eq {o : Outcome} {path : Path} (h : o.LiesAt path) (P : Path → Bool) :
    o.kept P = if P path then o else pass := by
  have he : o.errors.filter (fun f => P f.path) = o.errors.filter fun _ => P path :=
    List.filter_congr fun f hf => congrArg P (h f (List.mem_append_left _ hf))
  have hs : o.successes.filter (fun f => P f.path) = o.successes.filter fun _ => P path :=
    List.filter_congr fun f hf => congrArg P (h f (List.mem_append_right _ hf))
  rw [kept, he, hs]
  cases P path <;> simp [pass]

lemma kept_join_map {α : Type} {f : α → Outcome} {place : α → Path}
    (h : ∀ x, (f x).LiesAt (place x)) (P : Path → Bool) (xs : List α) :
    (join (xs.map f)).kept P = join ((xs.filter fun x => P (place x)).map f) := by
  induction xs with
  | nil => rfl
  | cons x rest ih =>
    rw [List.map_cons, join_cons, kept_append, (h x).kept_eq, ih, List.filter_cons]
    cases P (place x) with
    | true => rfl
    | false => exact pass_append _

end Outcome

namespace Json

lemma at?_append (v : Option Json) (q q' : List Segment) : at? v (q ++ q') = at? (at? v q) q' := by
  induction q generalizing v with
  | nil => rfl
  | cons segment rest ih => exact ih _

end Json

namespace Schema

variable {m : Type → Type}

lemma at?_append (s : Schema m) (q q' : List Segment) :
    s.at? (q ++ q') = (s.at? q).bind (·.at? q') := by
  induction q generalizing s with
  | nil => rfl
  | cons segment rest ih =>
    rw [List.cons_append, at?_cons, at?_cons, Option.bind_assoc]
    exact congrArg _ (funext fun t => ih t)

lemma Reaches.of_encloses {s : Schema m} {v : Option Json} {q q' : Path} (h : s.Reaches v q')
    (hq : q.Encloses q') : s.Reaches v q := by
  induction h with
  | root =>
    obtain rfl : q = .root := Path.eq_of_segments_eq (List.prefix_nil.1 hq)
    exact .root
  | @field q' base fields w name hr ht ha hn ih =>
    rcases List.prefix_concat_iff.1 hq with hq | hq
    · obtain rfl : q = q'.field name := Path.eq_of_segments_eq hq
      exact hr.field ht ha hn
    · exact ih hq
  | @index q' base items xs i hr ht ha hi ih =>
    rcases List.prefix_concat_iff.1 hq with hq | hq
    · obtain rfl : q = q'.index i := Path.eq_of_segments_eq hq
      exact hr.index ht ha hi
    · exact ih hq

lemma filter_positions_of_not_reaches {s : Schema m} (hs : s.Standard) {v : Option Json} {q : Path}
    (hq : ¬ s.Reaches v q) : ((s.positions v).filter fun p => q.Encloses p) = [] := by
  rw [List.filter_eq_nil_iff]
  intro p hp h
  have hr : s.Reaches v p := (mem_positions_iff hs v p).1 hp
  exact hq (hr.of_encloses (of_decide_eq_true h))

lemma filter_branches {s : Schema m} (hs : s.Proper) {w : Json} {b : Branch m}
    (hb : b ∈ s.branches w) (q : Path) :
    (((s.branches w).flatMap fun c =>
        (c.schema.positions c.input).map (Path.inside c.segment)).filter fun p =>
          (Path.inside b.segment q).Encloses p) =
      ((b.schema.positions b.input).filter fun p => q.Encloses p).map (Path.inside b.segment) := by
  obtain ⟨before, after, hw⟩ := List.append_of_mem hb
  have hn := nodup_branches hs w
  rw [hw, List.map_append, List.map_cons, List.nodup_middle, List.nodup_cons] at hn
  -- no other part has the segment of `b`, so none leads to a place inside it
  have ho (c : Branch m) (hc : c ∈ before ++ after) :
      (((c.schema.positions c.input).map (Path.inside c.segment)).filter fun p =>
        (Path.inside b.segment q).Encloses p) = [] := by
    rw [List.filter_eq_nil_iff]
    intro p hp h
    obtain ⟨p', _, rfl⟩ := List.mem_map.1 hp
    obtain ⟨hx, -⟩ := (Path.inside_encloses_iff _ _ _ _).1 (of_decide_eq_true h)
    apply hn.1
    rw [hx, ← List.map_append]
    exact List.mem_map_of_mem hc
  rw [List.filter_flatMap, hw, List.flatMap_append, List.flatMap_cons,
    List.flatMap_eq_nil_iff.2 fun c hc => ho c (List.mem_append_left _ hc),
    List.flatMap_eq_nil_iff.2 fun c hc => ho c (List.mem_append_right _ hc),
    List.nil_append, List.append_nil, List.filter_map]
  congr 1
  apply List.filter_congr
  intro p _
  simp [Path.inside_encloses_iff]

lemma filter_positions {s t : Schema m} (hs : s.Standard) {v : Option Json} {q : Path}
    (hq : q ∈ s.positions v) (ht : s.at? q.segments = some t) :
    ((s.positions v).filter fun p => q.Encloses p) =
      (t.positions (Json.at? v q.segments)).map (q ++ ·) := by
  induction s using branchInduct generalizing v q with
  | node s ih =>
    rcases mem_positions.1 hq with rfl | ⟨w, ha, b, hb, q', hq', rfl⟩
    · obtain rfl := Option.some.inj ht
      rw [List.filter_eq_self.2 fun p _ => decide_eq_true (List.nil_prefix (l := p.segments))]
      exact (List.map_id _).symm
    · obtain rfl := input_admitted ha
      obtain ⟨hs', hv'⟩ := at?_inside hs.node.distinct hb q'
      have hi := ih w b hb (hs.branch hb) hq' (hs'.symm.trans ht)
      rw [positions_admitted ha, List.filter_append, filter_branches hs.node hb, hi, hv',
        List.map_map]
      exact List.append_nil _

lemma positions_eq_append_root (s : Schema m) (v : Option Json) :
    ∃ front, s.positions v = front ++ [.root] := by
  by_cases ha : ∃ w, s.admission v = .admitted w
  · obtain ⟨w, ha⟩ := ha
    exact ⟨_, positions_admitted ha⟩
  · exact ⟨[], positions_of_not_admitted (not_exists.1 ha)⟩

lemma ownAt_append [Monad m] {s t : Schema m} {q : Path} (ht : s.at? q.segments = some t)
    (v : Option Json) (path p : Path) :
    s.ownAt v path (q ++ p) = t.ownAt (Json.at? v q.segments) (path ++ q) p := by
  have hp : path ++ (q ++ p) = path ++ q ++ p :=
    Path.eq_of_segments_eq (List.append_assoc ..).symm
  rw [ownAt, ownAt, Path.segments_append, at?_append, ht, Json.at?_append, hp]
  rfl

variable {s t : Schema Id}

lemma within_eq_join (hs : s.Standard) (hl : s.Local) (v : Option Json) (path q : Path) :
    (s.validateAt v path).toOutcome.within (path ++ q) =
      .join (((s.positions v).filter fun p => q.Encloses p).map (s.ownAt v path)) := by
  rw [toOutcome_validateAt hs, Outcome.within,
    Outcome.kept_join_map fun p => liesAt_ownAt hl v path p]
  simp only [Path.encloses_append_iff]

lemma within_of_reaches (hs : s.Standard) (hl : s.Local) {v : Option Json} {q : Path}
    (hq : s.Reaches v q) (ht : s.at? q.segments = some t) (path : Path) :
    (s.validateAt v path).toOutcome.within (path ++ q) =
      (t.validateAt (Json.at? v q.segments) (path ++ q)).toOutcome := by
  have hm : q ∈ s.positions v := (mem_positions_iff hs v q).2 hq
  have ho : s.ownAt v path ∘ (q ++ ·) = t.ownAt (Json.at? v q.segments) (path ++ q) :=
    funext fun p => ownAt_append ht v path p
  rw [within_eq_join hs hl, filter_positions hs hm ht, List.map_map, ho,
    toOutcome_validateAt (hs.at? ht)]

lemma within_of_not_reaches (hs : s.Standard) (hl : s.Local) {v : Option Json} {q : Path}
    (hq : ¬ s.Reaches v q) (path : Path) :
    (s.validateAt v path).toOutcome.within (path ++ q) = .pass := by
  rw [within_eq_join hs hl, filter_positions_of_not_reaches hs hq]
  rfl

lemma errorsAt_validateAt (hs : s.Standard) (hl : s.Local) (v : Option Json) (path : Path) :
    (s.validateAt v path).errorsAt path = (s.own v path).errors := by
  obtain ⟨front, hf⟩ := positions_eq_append_root s v
  have hn : Path.root ∉ front := by
    have hd := nodup_positions hs v
    rw [hf] at hd
    exact fun h => (List.nodup_append.1 hd).2.2 _ h _ (List.mem_singleton_self _) rfl
  have hi : (front.flatMap fun q => (s.ownAt v path q).errors).filter (·.path = path) = [] := by
    rw [List.filter_eq_nil_iff]
    intro f hf hp
    obtain ⟨q, hq, hf⟩ := List.mem_flatMap.1 hf
    have hpath := liesAt_ownAt hl v path q f (List.mem_append_left _ hf)
    rw [of_decide_eq_true hp] at hpath
    have hr : q.segments = [] := by simpa using congrArg Path.segments hpath
    exact hn (Path.eq_of_segments_eq (q := .root) hr ▸ hq)
  have ho : (s.own v path).errors.filter (·.path = path) = (s.own v path).errors := by
    rw [List.filter_eq_self]
    intro f hf
    exact decide_eq_true (liesAt_own hl.node v path f (List.mem_append_left _ hf))
  rw [Report.errorsAt, toOutcome_validateAt hs, Outcome.errors_join, List.flatMap_map, hf,
    List.flatMap_append, List.filter_append, hi, List.flatMap_singleton, ownAt_root, ho,
    List.nil_append]

end Schema

lemma Report.errorsAt_eq (r : Report) (q : Path) :
    r.errorsAt q = (r.toOutcome.within q).errors.filter (·.path = q) := by
  rw [errorsAt, Outcome.within, Outcome.kept, List.filter_filter]
  apply List.filter_congr
  intro f _
  have he : f.path = q → q.Encloses f.path := fun h => h ▸ List.prefix_rfl
  simpa using he

namespace Schema

/-- What is reported at a place of a schema and inside it is the report of the part that lies there,
if validation gets to the place, and nothing otherwise. -/
theorem validateAt_within {s t : Schema Id} (hs : s.Standard) (hl : s.Local) (v : Option Json)
    (path q : Path) (ht : s.at? q.segments = some t) :
    let r : Report := s.validateAt v path
    let part : Report := t.validateAt (Json.at? v q.segments) (path ++ q)
    (s.Reaches v q →
      r.errors.filter (fun f => (path ++ q).Encloses f.path) = part.errors ∧
      r.successes.filter (fun f => (path ++ q).Encloses f.path) = part.successes ∧
      r.errorsAt (path ++ q) = part.errorsAt (path ++ q) ∧
      part.errorsAt (path ++ q) = (t.own (Json.at? v q.segments) (path ++ q)).errors) ∧
    (¬ s.Reaches v q →
      r.errors.filter (fun f => (path ++ q).Encloses f.path) = [] ∧
      r.successes.filter (fun f => (path ++ q).Encloses f.path) = [] ∧
      r.errorsAt (path ++ q) = []) ∧
    ∀ c : Check Id, (∀ run, c ≠ .custom run) → c.Local := by
  intro r part
  refine ⟨fun hq => ?_, fun hq => ?_, fun c hc => Check.local_of_builtIn hc⟩
  · have hw : r.toOutcome.within (path ++ q) = part.toOutcome := within_of_reaches hs hl hq ht path
    refine ⟨congrArg Outcome.errors hw, congrArg Outcome.successes hw, ?_, ?_⟩
    · rw [Report.errorsAt_eq, hw]
      rfl
    · exact errorsAt_validateAt (hs.at? ht) (hl.at? ht) _ _
  · have hw : r.toOutcome.within (path ++ q) = .pass := within_of_not_reaches hs hl hq path
    refine ⟨congrArg Outcome.errors hw, congrArg Outcome.successes hw, ?_⟩
    rw [Report.errorsAt_eq, hw]
    rfl

theorem validateAt_within_signUp :
    let v := Json.object [("emails", .array [.string "ada@home", .null]), ("age", .string "old")]
    let path := Path.root.field "account"
    let q := (Path.root.field "emails").index 0
    let q' := (Path.root.field "emails").index 2
    let items : Schema Id := string.emailAddress
    signUp.Standard ∧ signUp.Local ∧ signUp.at? q.segments = some items ∧
      signUp.Reaches (some v) q ∧ ¬ signUp.Reaches (some v) q' ∧
      (signUp.validateAt (some v) path).errors.filter (fun f => (path ++ q).Encloses f.path) =
        (items.validateAt (some (.string "ada@home")) (path ++ q)).errors ∧
      (signUp.validateAt (some v) path).errors.filter
        (fun f => (path ++ q').Encloses f.path) = [] := by
  intro v path q q' items
  have hs := standard_signUp
  have hl := builtIn_signUp.local
  have hq : signUp.Reaches (some v) q := (mem_positions_iff hs _ _).1 (by decide)
  have hq' : ¬ signUp.Reaches (some v) q' :=
    fun h => absurd ((mem_positions_iff hs _ _).2 h) (by decide)
  obtain ⟨h, -⟩ := validateAt_within (t := items) hs hl (some v) path q rfl
  obtain ⟨-, h', -⟩ := validateAt_within (t := items) hs hl (some v) path q' rfl
  exact ⟨hs, hl, rfl, hq, hq', (h hq).1, (h' hq').1⟩

end Schema

end Intake
