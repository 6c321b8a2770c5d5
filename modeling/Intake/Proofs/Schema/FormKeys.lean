import Intake.Proofs.Report.Resolution
import Intake.Proofs.Schema.Locality

namespace Intake

namespace Schema

variable {m : Type → Type}

def Undotted (s : Schema m) : Prop := s.All fun t => ∀ x ∈ t.fields, '.' ∉ x.1.toList

instance (s : Schema m) : Decidable s.Undotted :=
  decidableAll (fun t => ∀ x ∈ t.fields, '.' ∉ x.1.toList) s

lemma dot_notMem_text_branch {s : Schema m} (hs : ∀ x ∈ s.fields, '.' ∉ x.1.toList) {w : Json}
    {b : Branch m} (hb : b ∈ s.branches w) : '.' ∉ b.segment.text.toList := by
  cases s with
  | scalar kind base => exact absurd hb List.not_mem_nil
  | custom leaf => exact absurd hb List.not_mem_nil
  | array base items =>
    obtain ⟨_, i, _, rfl⟩ := mem_branches_array.1 hb
    intro h
    exact absurd (Segment.isDigit_of_mem_text_index h) (by decide)
  | object base fields =>
    obtain ⟨name, _, hx, rfl⟩ := mem_branches_object.1 hb
    exact hs _ hx

lemma undotted_of_mem_positions {s : Schema m} (hs : s.Undotted) {v : Option Json} {q : Path}
    (hq : q ∈ s.positions v) : q.Undotted := by
  induction s using branchInduct generalizing v q with
  | node s ih =>
    rcases mem_positions.1 hq with rfl | ⟨w, ha, b, hb, q', hq', rfl⟩
    · exact fun _ h => absurd h List.not_mem_nil
    · have hr := ih w b hb (hs.branch hb) hq'
      exact List.forall_mem_cons.2 ⟨dot_notMem_text_branch hs.node hb, hr⟩

lemma texts_ne_of_mem_positions {s : Schema m} {name : String} (hn : name ∉ s.fields.map Prod.fst)
    (hd : ∃ c ∈ name.toList, c.isDigit = false) {v : Option Json} {q : Path}
    (hq : q ∈ s.positions v) : q.texts ≠ [name] := by
  rcases mem_positions.1 hq with rfl | ⟨w, ha, b, hb, q', hq', rfl⟩
  · exact (List.cons_ne_nil _ _).symm
  intro h
  obtain ⟨ht, -⟩ := List.cons.inj h
  cases s with
  | scalar kind base => exact absurd hb List.not_mem_nil
  | custom leaf => exact absurd hb List.not_mem_nil
  | array base items =>
    obtain ⟨_, i, _, rfl⟩ := mem_branches_array.1 hb
    obtain ⟨c, hc, hd⟩ := hd
    rw [← ht] at hc
    exact absurd (Segment.isDigit_of_mem_text_index hc) (by simp [hd])
  | object base fields =>
    obtain ⟨name', _, hx, rfl⟩ := mem_branches_object.1 hb
    exact hn (ht ▸ List.mem_map_of_mem hx)

lemma eq_of_formKey_eq {s : Schema m} (hs : s.Standard) (hu : s.Undotted)
    (hr : "root" ∉ s.fields.map Prod.fst) {v : Option Json} {p q : Path} (hp : p ∈ s.positions v)
    (hq : q ∈ s.positions v) (h : p.formKey = q.formKey) : p = q := by
  have hd : ∃ c ∈ "root".toList, c.isDigit = false := ⟨'r', by decide, by decide⟩
  apply eq_of_texts_eq hs hp hq
  exact Path.texts_eq_of_formKey_eq (undotted_of_mem_positions hu hp)
    (undotted_of_mem_positions hu hq) (texts_ne_of_mem_positions hr hd hp)
    (texts_ne_of_mem_positions hr hd hq) h

theorem showsEachPlace_validate {s : Schema Id} (hs : s.Standard) (hl : s.Local) (hu : s.Undotted)
    (hr : "root" ∉ s.fields.map Prod.fst) {v : Json} (hv : (s.validate v).isValid = false) :
    (s.validate v).ShowsEachPlace := by
  have hm (e : Finding) (he : e ∈ (s.validate v).errors) : e.path ∈ s.positions (some v) := by
    obtain ⟨q, hq, hp⟩ := path_of_mem_findings hs hl (List.mem_append_left _ he)
    rw [hp]
    exact hq
  apply (Report.showsEachPlace_iff hv).2
  intro e he e' he' h
  exact eq_of_formKey_eq hs hu hr (hm e he) (hm e' he') h

def billing : Schema Id :=
  emptyObject.applyAll [.field "billing.city" string,
    .field "billing" (emptyObject.applyAll [.field "city" string])]

theorem not_showsEachPlace_billing :
    let r : Report := billing.validate (.object [("billing", .object [])])
    r.isValid = false ∧ ¬ r.ShowsEachPlace := by
  intro r
  refine ⟨by decide, ?_⟩
  rintro ⟨h, -⟩
  exact absurd h (by decide)

/-- A form is shown the first error under each key, and so each place where the keys of places are
distinct. -/
theorem resolution_validate (s : Schema Id) (v : Json) (hv : (s.validate v).isValid = false) :
    let r : Report := s.validate v
    (r.resolution.errors.map Prod.fst).Nodup ∧
      r.resolution.errors.length = (r.errors.map fun e => e.path.formKey).dedup.length ∧
      (∀ e ∈ r.errors, r.resolution.errors.lookup e.path.formKey =
        (r.errors.find? fun e' => e'.path.formKey = e.path.formKey).map Finding.fieldError) ∧
      (r.ShowsEachPlace ↔ ∀ e ∈ r.errors, ∀ e' ∈ r.errors,
        e.path.formKey = e'.path.formKey → e.path = e'.path) ∧
      (s.Standard → s.Local → s.Undotted → "root" ∉ s.fields.map Prod.fst →
        r.ShowsEachPlace) := by
  intro r
  have he : r.resolution.errors = firstErrors r.errors := Report.errors_resolution hv
  rw [he]
  refine ⟨nodup_firstErrors _, ?_, fun e _ => lookup_firstErrors _ _, Report.showsEachPlace_iff hv,
    fun hs hl hu hr => showsEachPlace_validate hs hl hu hr hv⟩
  rw [length_firstErrors, List.card_toFinset]

theorem resolution_validate_signUp :
    let r : Report := signUp.validate (.object [("emails", .array []), ("age", .string "old")])
    r.isValid = false ∧ r.ShowsEachPlace := by
  intro r
  have hv : r.isValid = false := by decide
  obtain ⟨-, -, -, -, hp⟩ := resolution_validate signUp _ hv
  exact ⟨hv, hp standard_signUp builtIn_signUp.local (by decide) (by decide)⟩

end Schema

end Intake
