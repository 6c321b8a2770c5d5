import Intake.Proofs.Path
import Intake.Proofs.Schema.Conformance
import Intake.Proofs.Schema.Traversal
import Intake.Report.Stored

namespace Intake

lemma Path.toJson_inj {p q : Path} : p.toJson = q.toJson ↔ p.texts = q.texts := by
  rw [toJson, toJson, Json.array.injEq]
  exact List.map_inj_right fun _ _ => Json.string.inj

namespace Outcome

def LiesAt (o : Outcome) (path : Path) : Prop := ∀ f ∈ o.errors ++ o.successes, f.path = path

@[simp] lemma liesAt_pass (path : Path) : pass.LiesAt path := fun _ h => absurd h List.not_mem_nil

lemma liesAt_fail (f : Finding) : (fail f).LiesAt f.path := by
  simp [LiesAt, fail]

lemma liesAt_succeed (f : Finding) : (succeed f).LiesAt f.path := by
  simp [LiesAt, succeed]

lemma LiesAt.append {a b : Outcome} {path : Path} (ha : a.LiesAt path) (hb : b.LiesAt path) :
    (a ++ b).LiesAt path := by
  intro f hf
  simp only [errors_append, successes_append, List.mem_append] at hf
  rcases hf with (hf | hf) | hf | hf
  · exact ha f (List.mem_append_left _ hf)
  · exact hb f (List.mem_append_left _ hf)
  · exact ha f (List.mem_append_right _ hf)
  · exact hb f (List.mem_append_right _ hf)

lemma LiesAt.join {os : List Outcome} {path : Path} (h : ∀ o ∈ os, o.LiesAt path) :
    (Outcome.join os).LiesAt path := by
  intro f hf
  rcases List.mem_append.1 hf with hf | hf
  · obtain ⟨o, ho, hf⟩ := List.mem_flatMap.1 hf
    exact h o ho f (List.mem_append_left _ hf)
  · obtain ⟨o, ho, hf⟩ := List.mem_flatMap.1 hf
    exact h o ho f (List.mem_append_right _ hf)

end Outcome

lemma Registration.liesAt_present {m : Type → Type} (r : Registration m) {o : Outcome}
    {path : Path} (h : o.LiesAt path) : (r.present o).LiesAt path := by
  intro f hf
  rcases List.mem_append.1 hf with hf | hf
  · obtain ⟨g, hg, rfl⟩ := List.mem_map.1 hf
    exact h g (List.mem_append_left _ hg)
  · obtain ⟨g, hg, rfl⟩ := List.mem_map.1 hf
    exact h g (List.mem_append_right _ hg)

namespace Check

def Local (c : Check Id) : Prop := ∀ v path, Outcome.LiesAt (c.run v path) path

lemma local_limit (c : Constraint) : (limit c).Local := by
  intro v path
  change (c.outcome v path).LiesAt path
  rw [Constraint.outcome]
  split
  · exact Outcome.liesAt_pass path
  · exact Outcome.liesAt_fail _

lemma local_emailAddress : emailAddress.Local := by
  intro v path
  change (emailOutcome v.text path).LiesAt path
  rw [emailOutcome]
  split_ifs
  · exact Outcome.liesAt_pass path
  · exact Outcome.liesAt_succeed _
  · exact Outcome.liesAt_fail _

lemma local_remote (ask : Json → Id Answer) : (remote ask).Local := by
  intro v path
  change (Answer.outcome (ask v) path).LiesAt path
  cases ask v with
  | error e => exact Outcome.liesAt_fail _
  | ok a =>
    cases a with
    | available => exact Outcome.liesAt_succeed _
    | _ => exact Outcome.liesAt_fail _

lemma local_of_builtIn {c : Check Id} (hc : ∀ run, c ≠ custom run) : c.Local := by
  cases c with
  | limit c => exact local_limit c
  | emailAddress => exact local_emailAddress
  | remote ask => exact local_remote ask
  | custom run => exact absurd rfl (hc run)

lemma Suits.local {c : Check Id} {kind : Kind} (h : c.Suits kind) : c.Local := by
  apply local_of_builtIn
  rintro run rfl
  exact h.elim

end Check

namespace Schema

def Local (s : Schema Id) : Prop := s.All fun t => ∀ r ∈ t.base.registrations, r.check.Local

lemma BuiltIn.local {s : Schema Id} (h : s.BuiltIn) : s.Local :=
  h.all_checks fun _ _ hc => hc.local

variable {m : Type → Type}

lemma liesAt_own {s : Schema Id} (hs : ∀ r ∈ s.base.registrations, r.check.Local)
    (v : Option Json) (path : Path) : Outcome.LiesAt (s.own v path) path := by
  rw [own]
  split
  · exact Outcome.liesAt_pass path
  · exact Outcome.liesAt_fail _
  · rename_i w _
    change Outcome.LiesAt (.join (Id.run (List.mapM _ _))) path
    rw [List.idRun_mapM]
    apply Outcome.LiesAt.join
    intro o ho
    obtain ⟨r, hr, rfl⟩ := List.mem_map.1 ho
    exact r.liesAt_present (hs r hr _ path)

lemma liesAt_ownAt {s : Schema Id} (hs : s.Local) (v : Option Json) (path q : Path) :
    Outcome.LiesAt (s.ownAt v path q) (path ++ q) := by
  rw [ownAt]
  split
  · exact liesAt_own (hs.at? ‹_›).node _ _
  · exact Outcome.liesAt_pass _

theorem path_of_mem_findings {s : Schema Id} (hs : s.Standard) (hl : s.Local) {v : Option Json}
    {path : Path} {f : Finding}
    (hf : f ∈ (s.validateAt v path).errors ++ (s.validateAt v path).successes) :
    ∃ q ∈ s.positions v, f.path = path ++ q := by
  have ho := toOutcome_validateAt hs v path
  rw [ho, Outcome.errors_join, Outcome.successes_join, List.flatMap_map, List.flatMap_map] at hf
  rcases List.mem_append.1 hf with hf | hf
  · obtain ⟨q, hq, hf⟩ := List.mem_flatMap.1 hf
    exact ⟨q, hq, liesAt_ownAt hl v path q f (List.mem_append_left _ hf)⟩
  · obtain ⟨q, hq, hf⟩ := List.mem_flatMap.1 hf
    exact ⟨q, hq, liesAt_ownAt hl v path q f (List.mem_append_right _ hf)⟩

lemma eq_of_text_segment_eq {s : Schema m} {w : Json} {b b' : Branch m} (hb : b ∈ s.branches w)
    (hb' : b' ∈ s.branches w) (h : b.segment.text = b'.segment.text) : b.segment = b'.segment := by
  cases s with
  | scalar kind base => exact absurd hb List.not_mem_nil
  | custom leaf => exact absurd hb List.not_mem_nil
  | array base items =>
    obtain ⟨_, i, _, rfl⟩ := mem_branches_array.1 hb
    obtain ⟨_, j, _, rfl⟩ := mem_branches_array.1 hb'
    exact congrArg Segment.index (Segment.text_index_injective h)
  | object base fields =>
    obtain ⟨name, _, _, rfl⟩ := mem_branches_object.1 hb
    obtain ⟨name', _, _, rfl⟩ := mem_branches_object.1 hb'
    exact congrArg Segment.field h

theorem eq_of_texts_eq {s : Schema m} (hs : s.Standard) {v : Option Json} {p q : Path}
    (hp : p ∈ s.positions v) (hq : q ∈ s.positions v) (h : p.texts = q.texts) : p = q := by
  induction s using branchInduct generalizing v p q with
  | node s ih =>
    rcases mem_positions.1 hp with rfl | ⟨w, ha, b, hb, p', hp', rfl⟩
    · exact (Path.texts_eq_nil.1 h.symm).symm
    rcases mem_positions.1 hq with rfl | ⟨w', ha', b', hb', q', hq', rfl⟩
    · exact Path.texts_eq_nil.1 h
    obtain rfl := Admission.admitted.inj (ha.symm.trans ha')
    obtain ⟨ht, hr⟩ := List.cons.inj h
    -- The parts of one value are all elements or all fields, so the text fixes the segment.
    have hx : b.segment = b'.segment := eq_of_text_segment_eq hb hb' ht
    obtain rfl : b = b' := List.inj_on_of_nodup_map (nodup_branches hs.node w) hb hb' hx
    rw [ih w b hb (hs.branch hb) hp' hq' hr]

/-- Two findings of one report that are stored under the same texts lie at the same place. -/
theorem path_eq_iff_texts_eq {s : Schema Id} (hs : s.Standard) (hl : s.Local) (v : Option Json)
    (path : Path) :
    let r : Report := s.validateAt v path
    (∀ f ∈ r.errors ++ r.successes, ∀ g ∈ r.errors ++ r.successes,
      (f.path = g.path ↔ f.path.texts = g.path.texts) ∧
      (f.path = g.path ↔ f.path.toJson = g.path.toJson)) ∧
    ∀ c : Check Id, (∀ run, c ≠ .custom run) → c.Local := by
  refine ⟨fun f hf g hg => ?_, fun c hc => Check.local_of_builtIn hc⟩
  obtain ⟨p, hp, hfp⟩ := path_of_mem_findings hs hl hf
  obtain ⟨q, hq, hgq⟩ := path_of_mem_findings hs hl hg
  have ht (h : f.path.texts = g.path.texts) : f.path = g.path := by
    rw [hfp, hgq, Path.texts_append, Path.texts_append] at h
    rw [hfp, hgq, eq_of_texts_eq hs hp hq (List.append_cancel_left h)]
  exact ⟨⟨fun h => h ▸ rfl, ht⟩, fun h => h ▸ rfl, fun h => ht (Path.toJson_inj.1 h)⟩

theorem path_eq_iff_texts_eq_grid :
    let s : Schema Id := emptyObject.applyAll [.field "0" (arrayOf (arrayOf number)),
      .field "" string, .field "0.0" (emptyObject.applyAll [.field "0" string])]
    let v := some (Json.object [("0", .array [.array [.string "a"], .null]),
      ("0.0", .object [])])
    let p := ((Path.root.field "0").index 0).index 0
    let q := (Path.root.field "0.0").field "0"
    s.Standard ∧ s.Local ∧ ((Path.root.field "0").field "0").index 0 ≠ p ∧
      (((Path.root.field "0").field "0").index 0).texts = p.texts ∧
      (s.validateAt v .root).errors.map Finding.path =
        [p, (Path.root.field "0").index 1, Path.root.field "", q] ∧ p.texts ≠ q.texts := by
  intro s v p q
  have hs : s.Standard := by decide
  have hb : s.BuiltIn := by decide
  obtain ⟨h, -⟩ := path_eq_iff_texts_eq hs hb.local v .root
  refine ⟨hs, hb.local, by decide, rfl, rfl, ?_⟩
  have hpq := (h _ List.mem_cons_self _ (by exact .tail _ (.tail _ (.tail _ (.head _))))).1
  exact fun ht => absurd (hpq.2 ht) (by decide)

end Schema

end Intake
