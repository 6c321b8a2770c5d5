import Intake.Constraint
import Mathlib.Data.List.Induction

namespace Intake

namespace Constraint

def mimeTypes? : Constraint → Option (List String)
  | mimeType allowed => some allowed
  | _ => none

def mostBytes? : Constraint → Option Nat
  | maximumSize bytes => some bytes
  | _ => none

def leastBytes? : Constraint → Option Nat
  | minimumSize bytes => some bytes
  | _ => none

@[simp] lemma mimeTypes?_eq_some {c : Constraint} {allowed : List String} :
    c.mimeTypes? = some allowed ↔ c = mimeType allowed := by
  cases c <;> simp [mimeTypes?]

@[simp] lemma mostBytes?_eq_some {c : Constraint} {bytes : Nat} :
    c.mostBytes? = some bytes ↔ c = maximumSize bytes := by
  cases c <;> simp [mostBytes?]

@[simp] lemma leastBytes?_eq_some {c : Constraint} {bytes : Nat} :
    c.leastBytes? = some bytes ↔ c = minimumSize bytes := by
  cases c <;> simp [leastBytes?]

end Constraint

attribute [ext] FileHints

namespace FileHints

def ofLimits (limits : List Constraint) : FileHints where
  allowedMimeTypes := (limits.filterMap Constraint.mimeTypes?).getLast?
  maximumSize := (limits.filterMap Constraint.mostBytes?).getLast?
  minimumSize := (limits.filterMap Constraint.leastBytes?).getLast?

lemma foldl_noted {α : Type} (hint : FileHints → Option α) (select : Constraint → Option α)
    (hn : ∀ h c, hint (h.noted c) = (select c).or (hint h)) (h : FileHints)
    (limits : List Constraint) :
    hint (limits.foldl noted h) = (limits.filterMap select).getLast?.or (hint h) := by
  induction limits using List.reverseRecOn with
  | nil => rfl
  | append_singleton rest c ih =>
    rw [List.foldl_append, List.foldl_cons, List.foldl_nil, hn, ih, List.filterMap_append]
    cases hc : select c <;> simp [hc]

lemma foldl_noted_empty (limits : List Constraint) :
    limits.foldl noted .empty = ofLimits limits := by
  apply FileHints.ext
  · refine (foldl_noted _ Constraint.mimeTypes? (fun h c => ?_) _ _).trans Option.or_none
    cases c <;> rfl
  · refine (foldl_noted _ Constraint.mostBytes? (fun h c => ?_) _ _).trans Option.or_none
    cases c <;> rfl
  · refine (foldl_noted _ Constraint.leastBytes? (fun h c => ?_) _ _).trans Option.or_none
    cases c <;> rfl

end FileHints

end Intake
