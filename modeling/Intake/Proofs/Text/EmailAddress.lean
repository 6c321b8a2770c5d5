import Intake.Text.EmailAddress
import Mathlib.Data.List.TakeDrop

namespace Intake

def IsRun (s : List Char) : Prop := s ≠ [] ∧ ∀ c ∈ s, isAddressChar c = true

def IsAddress (s : List Char) : Prop :=
  ∃ name host domain, IsRun name ∧ IsRun host ∧ IsRun domain ∧
    s = name ++ '@' :: (host ++ '.' :: domain)

lemma hasInnerDot_iff (s : List Char) :
    hasInnerDot s = true ↔ ∃ a b, a ≠ [] ∧ b ≠ [] ∧ s = a ++ '.' :: b := by
  cases s with
  | nil => simp [hasInnerDot]
  | cons c rest =>
    rw [hasInnerDot, List.contains_iff_mem]
    constructor
    · intro h
      have hr : rest ≠ [] := by
        rintro rfl
        exact List.not_mem_nil h
      obtain ⟨a, b, hab⟩ := List.append_of_mem h
      obtain ⟨z, hz⟩ : ∃ z, rest.dropLast ++ [z] = rest := ⟨_, List.dropLast_concat_getLast hr⟩
      rw [← hz, hab]
      exact ⟨c :: a, b ++ [z], List.cons_ne_nil _ _, by simp, by simp⟩
    · rintro ⟨a, b, ha, hb, h⟩
      obtain ⟨x, a, rfl⟩ := List.exists_cons_of_ne_nil ha
      obtain ⟨-, hr⟩ := List.cons.inj h
      rw [hr, List.append_eq, List.dropLast_append_of_ne_nil (List.cons_ne_nil _ _),
        List.dropLast_cons_of_ne_nil hb]
      exact List.mem_append_right _ List.mem_cons_self

lemma isAddressChar_at : isAddressChar '@' = false := by decide

lemma isAddressChar_dot : isAddressChar '.' = true := by decide

lemma isEmailAddress_append {name : List Char} (hn : IsRun name) (rest : List Char) :
    isEmailAddress (name ++ '@' :: rest) = (rest.all isAddressChar && hasInnerDot rest) := by
  obtain ⟨c, name, rfl⟩ := List.exists_cons_of_ne_nil hn.1
  simp only [isEmailAddress, List.span_eq_takeWhile_dropWhile, List.takeWhile_append_of_pos hn.2,
    List.dropWhile_append_of_pos hn.2, isAddressChar_at, Bool.false_eq_true, not_false_eq_true,
    List.takeWhile_cons_of_neg, List.dropWhile_cons_of_neg, List.append_nil]

lemma exists_of_isEmailAddress {s : List Char} (h : isEmailAddress s = true) :
    ∃ name rest, IsRun name ∧ s = name ++ '@' :: rest := by
  rw [isEmailAddress] at h
  rw [List.span_eq_takeWhile_dropWhile] at h
  split at h
  · rename_i c name rest he
    obtain ⟨hn, hr⟩ := Prod.mk.inj he
    refine ⟨c :: name, rest, ⟨List.cons_ne_nil _ _, fun x hx => ?_⟩, ?_⟩
    · rw [← hn] at hx
      exact List.all_eq_true.1 List.all_takeWhile x hx
    · rw [← hn, ← hr, List.takeWhile_append_dropWhile]
  · cases h

theorem isEmailAddress_iff (s : List Char) : isEmailAddress s = true ↔ IsAddress s := by
  constructor
  · intro h
    obtain ⟨name, rest, hn, rfl⟩ := exists_of_isEmailAddress h
    rw [isEmailAddress_append hn, Bool.and_eq_true, List.all_eq_true, hasInnerDot_iff] at h
    obtain ⟨hr, host, domain, hh, hd, rfl⟩ := h
    exact ⟨name, host, domain, hn, ⟨hh, fun c hc => hr c (List.mem_append_left _ hc)⟩,
      ⟨hd, fun c hc => hr c (List.mem_append_right _ (List.mem_cons_of_mem _ hc))⟩, rfl⟩
  · rintro ⟨name, host, domain, hn, hh, hd, rfl⟩
    rw [isEmailAddress_append hn, Bool.and_eq_true, List.all_eq_true, hasInnerDot_iff]
    refine ⟨fun c hc => ?_, host, domain, hh.1, hd.1, rfl⟩
    rcases List.mem_append.1 hc with hc | hc
    · exact hh.2 c hc
    rcases List.mem_cons.1 hc with rfl | hc
    · exact isAddressChar_dot
    · exact hd.2 c hc

end Intake
