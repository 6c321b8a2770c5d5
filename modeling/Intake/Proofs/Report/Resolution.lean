import Intake.Proofs.Keyed
import Intake.Proofs.Path
import Intake.Report.Resolution
import Mathlib.Data.Finset.Card

namespace Intake

namespace Path

lemma formKey_root : root.formKey = (ofFields ["root"]).dotted := by decide

lemma formKey_of_ne_root {p : Path} (hp : p ≠ root) : p.formKey = p.dotted :=
  if_neg fun h => hp (isRoot_iff.1 h)

lemma texts_eq_of_formKey_eq {p q : Path} (hp : p.Undotted) (hq : q.Undotted)
    (hpr : p.texts ≠ ["root"]) (hqr : q.texts ≠ ["root"]) (h : p.formKey = q.formKey) :
    p.texts = q.texts := by
  have hu : (ofFields ["root"]).Undotted := by decide
  by_cases hp' : p = root
  · by_cases hq' : q = root
    · rw [hp', hq']
    · rw [hp', formKey_root, formKey_of_ne_root hq'] at h
      exact absurd (texts_eq_of_dotted_eq hu hq (by decide) hq' h).symm hqr
  · by_cases hq' : q = root
    · rw [hq', formKey_root, formKey_of_ne_root hp'] at h
      exact absurd (texts_eq_of_dotted_eq hp hu hp' (by decide) h) hpr
    · rw [formKey_of_ne_root hp', formKey_of_ne_root hq'] at h
      exact texts_eq_of_dotted_eq hp hq hp' hq' h

end Path

lemma firstErrors_append (errors : List Finding) (e : Finding) :
    firstErrors (errors ++ [e]) =
      assignNew (firstErrors errors) e.path.formKey e.fieldError :=
  List.foldl_append

lemma nodup_firstErrors (errors : List Finding) : ((firstErrors errors).map Prod.fst).Nodup := by
  induction errors using List.reverseRecOn with
  | nil => exact List.nodup_nil
  | append_singleton errors e ih =>
    rw [firstErrors_append]
    exact nodup_assignNew ih _ _

lemma lookup_firstErrors (errors : List Finding) (key : String) :
    (firstErrors errors).lookup key =
      (errors.find? fun e => e.path.formKey = key).map Finding.fieldError := by
  induction errors using List.reverseRecOn with
  | nil => rfl
  | append_singleton errors e ih =>
    rw [firstErrors_append, lookup_assignNew, ih, List.find?_append, Option.map_or]
    by_cases h : e.path.formKey = key <;> simp [h]

lemma mem_names_firstErrors {errors : List Finding} {key : String} :
    key ∈ (firstErrors errors).map Prod.fst ↔ key ∈ errors.map fun e => e.path.formKey := by
  rw [← not_iff_not, ← lookup_eq_none, lookup_firstErrors, Option.map_eq_none_iff,
    List.find?_eq_none, List.mem_map]
  simp

lemma length_firstErrors (errors : List Finding) :
    (firstErrors errors).length = (errors.map fun e => e.path.formKey).toFinset.card := by
  have hs : ((firstErrors errors).map Prod.fst).toFinset =
      (errors.map fun e => e.path.formKey).toFinset := by
    ext key
    rw [List.mem_toFinset, List.mem_toFinset, mem_names_firstErrors]
  rw [← hs, List.toFinset_card_of_nodup (nodup_firstErrors errors), List.length_map]

namespace Report

lemma errors_resolution {r : Report} (hr : r.isValid = false) :
    r.resolution.errors = firstErrors r.errors := by
  simp [resolution, hr]

def ShowsEachPlace (r : Report) : Prop :=
  r.resolution.errors.length = (r.errors.map Finding.path).dedup.length ∧
    ∀ q ∈ r.errors.map Finding.path, r.resolution.errors.lookup q.formKey =
      (r.errors.find? fun e => e.path = q).map Finding.fieldError

theorem showsEachPlace_iff {r : Report} (hr : r.isValid = false) :
    r.ShowsEachPlace ↔ ∀ e ∈ r.errors, ∀ e' ∈ r.errors,
      e.path.formKey = e'.path.formKey → e.path = e'.path := by
  have hk : (r.errors.map fun e => e.path.formKey).toFinset =
      (r.errors.map Finding.path).toFinset.image Path.formKey := by
    ext key
    simp
  -- As many keys as paths means that no key stands for two paths.
  rw [ShowsEachPlace, errors_resolution hr, length_firstErrors, ← List.card_toFinset, hk,
    Finset.card_image_iff]
  constructor
  · rintro ⟨hi, -⟩ e he e' he' h
    apply hi _ _ h
    · simpa using ⟨e, he, rfl⟩
    · simpa using ⟨e', he', rfl⟩
  · intro h
    refine ⟨?_, ?_⟩
    · intro p hp q hq hpq
      obtain ⟨e, he, rfl⟩ := List.mem_map.1 (List.mem_toFinset.1 hp)
      obtain ⟨e', he', rfl⟩ := List.mem_map.1 (List.mem_toFinset.1 hq)
      exact h e he e' he' hpq
    · intro q hq
      obtain ⟨e, he, rfl⟩ := List.mem_map.1 hq
      have hf (e' : Finding) (he' : e' ∈ r.errors) :
          decide (e'.path.formKey = e.path.formKey) = decide (e'.path = e.path) :=
        decide_eq_decide.2 ⟨h e' he' e he, congrArg Path.formKey⟩
      rw [lookup_firstErrors, ← List.head?_filter, ← List.head?_filter, List.filter_congr hf]

end Report

end Intake
