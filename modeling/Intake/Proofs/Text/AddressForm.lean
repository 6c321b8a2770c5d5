import Intake.Check
import Intake.Proofs.Text.EmailAddress
import Intake.Proofs.Text.Pattern
import Mathlib.Data.List.Basic

namespace Intake

def addressPattern : Pattern :=
  let run : Pattern := .plus (.one isAddressChar)
  let address := .seq run (.seq (.one (· == '@')) (.seq run (.seq (.one (· == '.')) run)))
  .seq .start (.seq address .finish)

lemma found_addressPattern (s : List Char) : addressPattern.Found s ↔ IsAddress s := by
  rw [addressPattern, Pattern.found_anchored]
  simp only [Pattern.matches_seq, Pattern.matches_one, Pattern.matches_plus_one, beq_iff_eq]
  constructor
  · rintro ⟨name, _, rfl, hn, _, _, rfl, ⟨_, rfl, rfl⟩, host, _, rfl, hh, _, domain, rfl,
      ⟨_, rfl, rfl⟩, hd⟩
    exact ⟨name, host, domain, hn, hh, hd, rfl⟩
  · rintro ⟨name, host, domain, hn, hh, hd, rfl⟩
    exact ⟨name, _, rfl, hn, ['@'], _, rfl, ⟨_, rfl, rfl⟩, host, _, rfl, hh, ['.'], domain, rfl,
      ⟨_, rfl, rfl⟩, hd⟩

def hostPart (s : List Char) : List Char := (s.dropWhile (· ≠ '@')).tail

structure HasAddressForm (s : List Char) : Prop where
  at_sign : s.count '@' = 1
  not_blank : ∀ c ∈ s, isBlank c = false
  name : s.takeWhile (· ≠ '@') ≠ []
  dot : ∃ i, 0 < i ∧ i + 1 < (hostPart s).length ∧ (hostPart s)[i]? = some '.'

lemma isAddressChar_iff (c : Char) : isAddressChar c = true ↔ isBlank c = false ∧ c ≠ '@' := by
  rw [isAddressChar, Bool.and_eq_true, Bool.not_eq_true', bne_iff_ne]

lemma innerDot_iff (s : List Char) :
    (∃ i, 0 < i ∧ i + 1 < s.length ∧ s[i]? = some '.') ↔
      ∃ a b, a ≠ [] ∧ b ≠ [] ∧ s = a ++ '.' :: b := by
  constructor
  · rintro ⟨i, hi, hl, hd⟩
    obtain ⟨hi', hd⟩ := List.getElem?_eq_some_iff.1 hd
    refine ⟨s.take i, s.drop (i + 1), ?_, ?_, ?_⟩
    · rw [← List.length_pos_iff, List.length_take]
      omega
    · rw [← List.length_pos_iff, List.length_drop]
      omega
    · rw [← hd, ← List.drop_eq_getElem_cons hi', List.take_append_drop]
  · rintro ⟨a, b, ha, hb, rfl⟩
    have ha := List.length_pos_iff.2 ha
    have hb := List.length_pos_iff.2 hb
    refine ⟨a.length, ha, ?_, ?_⟩
    · rw [List.length_append, List.length_cons]
      omega
    · rw [List.getElem?_append_right (Nat.le_refl _), Nat.sub_self, List.getElem?_cons_zero]

lemma isRun_iff {s : List Char} :
    IsRun s ↔ s ≠ [] ∧ (∀ c ∈ s, isBlank c = false) ∧ '@' ∉ s := by
  simp only [IsRun, isAddressChar_iff, forall₂_and]
  refine and_congr_right' (and_congr_right' ⟨fun h hm => h _ hm rfl, fun h c hc hm => h (hm ▸ hc)⟩)

section Split

variable {name : List Char} (hn : '@' ∉ name) (host : List Char)

include hn

lemma ne_at_of_mem (c : Char) (hc : c ∈ name) : decide (c ≠ '@') = true :=
  decide_eq_true fun he => hn (he ▸ hc)

lemma takeWhile_append_at : (name ++ '@' :: host).takeWhile (· ≠ '@') = name := by
  rw [List.takeWhile_append_of_pos (ne_at_of_mem hn), List.takeWhile_cons_of_neg (by decide),
    List.append_nil]

lemma hostPart_append_at : hostPart (name ++ '@' :: host) = host := by
  rw [hostPart, List.dropWhile_append_of_pos (ne_at_of_mem hn),
    List.dropWhile_cons_of_neg (by decide), List.tail_cons]

lemma count_append_at : (name ++ '@' :: host).count '@' = host.count '@' + 1 := by
  rw [List.count_append, List.count_eq_zero.2 hn, List.count_cons_self, Nat.zero_add]

end Split

theorem hasAddressForm_iff (s : List Char) : HasAddressForm s ↔ IsAddress s := by
  constructor
  · rintro ⟨ha, hb, hn, hd⟩
    have hm : '@' ∈ s := List.count_pos_iff.1 (by omega)
    obtain ⟨name, rest, rfl, hname⟩ := List.eq_append_cons_of_mem hm
    rw [takeWhile_append_at hname] at hn
    rw [hostPart_append_at hname, innerDot_iff] at hd
    rw [count_append_at hname, Nat.add_eq_right, List.count_eq_zero] at ha
    obtain ⟨host, domain, hh, hd, rfl⟩ := hd
    rw [List.mem_append, List.mem_cons, not_or, not_or] at ha
    simp only [List.forall_mem_append, List.forall_mem_cons] at hb
    exact ⟨name, host, domain, isRun_iff.2 ⟨hn, hb.1, hname⟩, isRun_iff.2 ⟨hh, hb.2.2.1, ha.1⟩,
      isRun_iff.2 ⟨hd, hb.2.2.2.2, ha.2.2⟩, rfl⟩
  · rintro ⟨name, host, domain, hn, hh, hd, rfl⟩
    obtain ⟨hn, hnb, hna⟩ := isRun_iff.1 hn
    obtain ⟨hh, hhb, hha⟩ := isRun_iff.1 hh
    obtain ⟨hd, hdb, hda⟩ := isRun_iff.1 hd
    constructor
    · rw [count_append_at hna, Nat.add_eq_right, List.count_eq_zero, List.mem_append,
        List.mem_cons]
      rintro (h | h | h)
      · exact hha h
      · cases h
      · exact hda h
    · simp only [List.forall_mem_append, List.forall_mem_cons]
      exact ⟨hnb, by decide, hhb, by decide, hdb⟩
    · rw [takeWhile_append_at hna]
      exact hn
    · rw [hostPart_append_at hna, innerDot_iff]
      exact ⟨host, domain, hh, hd, rfl⟩

lemma succeed_ne_fail (success error : Finding) : Outcome.succeed success ≠ .fail error :=
  fun h => List.cons_ne_nil _ _ (congrArg Outcome.successes h)

theorem run_emailAddress {m : Type → Type} [Monad m] [LawfulMonad m] (message : Option String)
    (rule : Option RuleReference) (s : String) (path : Path) :
    let r : Registration m := ⟨"emailAddress", .emailAddress, message, rule⟩
    let valid : Finding := ⟨path, "validEmailAddress", "Valid email address.", rule⟩
    let invalid : Finding :=
      ⟨path, "invalidEmailAddress", message.getD "Invalid email address.", rule⟩
    ∃ o : Outcome, r.run (.string s) path = pure o ∧ (s = "" → o = .pass) ∧
      (s ≠ "" → (o = .succeed valid ↔ HasAddressForm s.toList) ∧
        (o = .fail invalid ↔ ¬HasAddressForm s.toList)) ∧
      (addressPattern.Found s.toList ↔ HasAddressForm s.toList) := by
  intro r valid invalid
  refine ⟨r.present (emailOutcome s path), ?_, ?_, ?_, ?_⟩
  · exact map_pure _ _
  · rintro rfl
    rfl
  · intro hs
    have ho : r.present (emailOutcome s path) =
        if isEmailAddress s.toList then .succeed valid else .fail invalid := by
      rw [emailOutcome, if_neg hs]
      split <;> rfl
    rw [ho, hasAddressForm_iff, ← isEmailAddress_iff]
    split
    · next h => exact ⟨iff_of_true rfl h, iff_of_false (succeed_ne_fail _ _) (not_not.2 h)⟩
    · next h => exact ⟨iff_of_false (succeed_ne_fail _ _).symm h, iff_of_true rfl h⟩
  · rw [hasAddressForm_iff, found_addressPattern]

theorem run_emailAddress_home :
    let r : Registration Id := ⟨"emailAddress", .emailAddress, some "Not an address.", none⟩
    r.run (.string "ada@home.org") .root =
        pure (.succeed ⟨.root, "validEmailAddress", "Valid email address.", none⟩) ∧
      r.run (.string "ada@.home.") .root =
        pure (.fail ⟨.root, "invalidEmailAddress", "Not an address.", none⟩) ∧
      r.run (.string "ada@home\u3000.org") .root =
        pure (.fail ⟨.root, "invalidEmailAddress", "Not an address.", none⟩) ∧
      r.run (.string "") .root = pure .pass := by
  intro r
  have check := run_emailAddress (m := Id) (some "Not an address.") none
  have reject (s : String) (hs : s ≠ "") (ha : ¬isEmailAddress s.toList) :
      r.run (.string s) .root =
        pure (.fail ⟨.root, "invalidEmailAddress", "Not an address.", none⟩) := by
    obtain ⟨_, hr, -, ho, -⟩ := check s .root
    refine hr.trans (congrArg pure ((ho hs).2.2 ?_))
    rwa [hasAddressForm_iff, ← isEmailAddress_iff]
  refine ⟨?_, reject _ (by decide) (by decide), reject _ (by decide) (by decide), ?_⟩
  · obtain ⟨_, hr, -, ho, -⟩ := check "ada@home.org" .root
    refine hr.trans (congrArg pure ((ho (by decide)).1.2 ?_))
    rw [hasAddressForm_iff, ← isEmailAddress_iff]
    decide
  · obtain ⟨_, hr, ho, -⟩ := check "" .root
    exact hr.trans (congrArg pure (ho rfl))

end Intake
