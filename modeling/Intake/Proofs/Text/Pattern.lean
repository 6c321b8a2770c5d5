import Mathlib.Tactic.Lemma

namespace Intake

inductive Pattern where
  | start
  | finish
  | one (accepts : Char → Bool)
  | plus (p : Pattern)
  | seq (p q : Pattern)

namespace Pattern

inductive Matches : Pattern → List Char → List Char → List Char → Prop
  | start {after} : Matches start [] [] after
  | finish {before} : Matches finish before [] []
  | one {accepts before c after} : accepts c = true → Matches (one accepts) before [c] after
  | once {p before s after} : Matches p before s after → Matches (plus p) before s after
  | more {p before s t after} : Matches p before s (t ++ after) →
      Matches (plus p) (before ++ s) t after → Matches (plus p) before (s ++ t) after
  | seq {p q before s t after} : Matches p before s (t ++ after) →
      Matches q (before ++ s) t after → Matches (seq p q) before (s ++ t) after

def Found (p : Pattern) (text : List Char) : Prop :=
  ∃ before s after, text = before ++ s ++ after ∧ p.Matches before s after

variable {p q : Pattern} {accepts : Char → Bool} {before s after : List Char}

lemma matches_start : Matches start before s after ↔ before = [] ∧ s = [] := by
  constructor
  · rintro ⟨⟩
    exact ⟨rfl, rfl⟩
  · rintro ⟨rfl, rfl⟩
    exact .start

lemma matches_finish : Matches finish before s after ↔ s = [] ∧ after = [] := by
  constructor
  · rintro ⟨⟩
    exact ⟨rfl, rfl⟩
  · rintro ⟨rfl, rfl⟩
    exact .finish

lemma matches_one : Matches (one accepts) before s after ↔ ∃ c, accepts c = true ∧ s = [c] := by
  constructor
  · intro h
    cases h with
    | one hc => exact ⟨_, hc, rfl⟩
  · rintro ⟨c, hc, rfl⟩
    exact .one hc

lemma matches_seq : Matches (seq p q) before s after ↔
    ∃ a b, s = a ++ b ∧ p.Matches before a (b ++ after) ∧ q.Matches (before ++ a) b after := by
  constructor
  · intro h
    cases h with
    | seq hp hq => exact ⟨_, _, rfl, hp, hq⟩
  · rintro ⟨a, b, rfl, hp, hq⟩
    exact .seq hp hq

lemma matches_plus_one : Matches (plus (one accepts)) before s after ↔
    s ≠ [] ∧ ∀ c ∈ s, accepts c = true := by
  constructor
  · intro h
    generalize hp : plus (one accepts) = p at h
    induction h with
    | once h =>
      cases hp
      obtain ⟨c, hc, rfl⟩ := matches_one.1 h
      exact ⟨List.cons_ne_nil _ _, List.forall_mem_singleton.2 hc⟩
    | more h _ _ ih =>
      cases hp
      obtain ⟨c, hc, rfl⟩ := matches_one.1 h
      exact ⟨List.cons_ne_nil _ _, List.forall_mem_cons.2 ⟨hc, (ih rfl).2⟩⟩
    | _ => cases hp
  · rintro ⟨hn, hs⟩
    induction s generalizing before with
    | nil => exact absurd rfl hn
    | cons c rest ih =>
      obtain ⟨hc, hr⟩ := List.forall_mem_cons.1 hs
      cases rest with
      | nil => exact .once (.one hc)
      | cons d rest => exact .more (s := [c]) (.one hc) (ih (List.cons_ne_nil _ _) hr)

lemma found_anchored {text : List Char} :
    (seq start (seq p finish)).Found text ↔ p.Matches [] text [] := by
  simp only [Found, matches_seq, matches_start, matches_finish]
  constructor
  · rintro ⟨_, _, _, rfl, _, _, rfl, ⟨rfl, rfl⟩, a, _, rfl, h, rfl, rfl⟩
    simp only [List.append_nil, List.nil_append] at h ⊢
    exact h
  · intro h
    exact ⟨[], text, [], (List.append_nil _).symm, [], text, rfl, ⟨rfl, rfl⟩, text, [],
      (List.append_nil _).symm, h, rfl, rfl⟩

end Pattern

end Intake
