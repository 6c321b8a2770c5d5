import Intake.Proofs.Schema.Matching
import Mathlib.Data.List.Flatten

namespace Intake

def Outcome.Among (o o' : Outcome) : Prop :=
  o.errors.Sublist o'.errors ∧ o.successes.Sublist o'.successes

namespace Outcome

lemma Among.refl (o : Outcome) : o.Among o := ⟨List.Sublist.refl _, List.Sublist.refl _⟩

lemma Among.append {a a' b b' : Outcome} (ha : a.Among a') (hb : b.Among b') :
    (a ++ b).Among (a' ++ b') :=
  ⟨ha.1.append hb.1, ha.2.append hb.2⟩

lemma Among.join {os os' : List Outcome} (h : List.Forall₂ Among os os') :
    (join os).Among (join os') := by
  induction h with
  | nil => exact .refl _
  | cons ho _ ih => exact ho.append ih

lemma join_among_of_sublist {os os' : List Outcome} (h : os.Sublist os') :
    (join os).Among (join os') :=
  ⟨h.flatMap errors, h.flatMap successes⟩

end Outcome

variable {m : Type → Type}

structure Base.Gains (b b' : Base m) : Prop where
  optional : b'.optional = b.optional
  nullable : b'.nullable = b.nullable
  default : b'.default = b.default
  registrations : b.registrations.Sublist b'.registrations

lemma Base.Gains.admission {b b' : Base m} (h : b.Gains b') (kind : Kind) (v : Option Json) :
    b'.admission kind v = b.admission kind v := by
  cases v <;> simp only [Base.admission, h.optional, h.nullable]

namespace Report

def Among (r r' : Report) : Prop := r.value = r'.value ∧ r.toOutcome.Among r'.toOutcome

lemma simulation_gains : Simulation Base.Gains Among where
  enter := by
    intro b b' kind v path inspect inspect' hb hi
    rw [Base.enter, Base.enter, hb.admission]
    cases ha : b.admission kind v with
    | exempt => exact ⟨rfl, .refl _⟩
    | refused why => exact ⟨rfl, .refl _⟩
    | admitted w => exact hi w ha
  conclude := by
    intro b b' parts parts' path assemble hb hp
    have hv : parts.map Report.value = parts'.map Report.value := by
      rw [← List.forall₂_eq_eq_eq, List.forall₂_map_left_iff, List.forall₂_map_right_iff]
      exact hp.imp fun _ _ h => h.1
    have ho : (Outcome.join (parts.map toOutcome)).Among (.join (parts'.map toOutcome)) := by
      apply Outcome.Among.join
      rw [List.forall₂_map_left_iff, List.forall₂_map_right_iff]
      exact hp.imp fun _ _ h => h.2
    have hc := Outcome.join_among_of_sublist <| hb.registrations.map fun r : Registration Id =>
      Id.run (r.run (assemble (parts.map Report.value)) path)
    rw [Base.conclude_pure, Base.conclude_pure, ← hv]
    exact ⟨rfl, ho.append hc⟩

end Report

namespace Schema

abbrev Gains : Schema m → Schema m → Prop := Matches Base.Gains

theorem validateAt_gains {s s' : Schema Id} (h : s.Gains s') (v : Option Json) (path : Path) :
    let r : Report := s.validateAt v path
    let r' : Report := s'.validateAt v path
    r.value = r'.value ∧ r.errors.Sublist r'.errors ∧ r.successes.Sublist r'.successes ∧
      (r'.isValid = true → r.isValid = true) := by
  intro r r'
  obtain ⟨hv, he, hs⟩ : r.Among r' := h.validateAt Report.simulation_gains v path
  refine ⟨hv, he, hs, fun hr => ?_⟩
  rw [Report.isValid_iff] at hr ⊢
  rw [hr] at he
  exact List.sublist_nil.1 he

theorem validateAt_gains_signUp :
    let closed : Step Id := .custom "closed" fun _ path => .fail ⟨path, "closed", "Closed.", none⟩
    let emails := (((arrayOf (string.apply closed).emailAddress).apply closed).limit
      (.minimumItems 1)).message "Needed."
    let s := emptyObject.applyAll [.field "name" (string.limit (.minimumLength 3)),
      .field "emails" emails, .field "age" ((number.limit .integer).optional),
      .field "avatar" (file.apply closed).nullable, closed]
    let v := Json.object [("emails", .array [.string "ada@home"]), ("name", .string "Ada")]
    signUp.Gains s ∧
      (signUp.validateAt (some v) .root).errors.Sublist (s.validateAt (some v) .root).errors ∧
      (s.validateAt (some v) .root).errors.map (·.identifier) =
        ["closed", "invalidEmailAddress", "closed", "required", "closed"] := by
  intro closed emails s v
  have h : signUp.Gains s := by
    refine .object ⟨rfl, rfl, rfl, List.nil_sublist _⟩ rfl ?_
    refine List.forall_mem_cons.2 ⟨.scalar ⟨rfl, rfl, rfl, .refl _⟩, ?_⟩
    refine List.forall_mem_cons.2 ⟨.array ⟨rfl, rfl, rfl, .cons _ (.refl _)⟩
      (.scalar ⟨rfl, rfl, rfl, .cons _ (.refl _)⟩), ?_⟩
    refine List.forall_mem_cons.2 ⟨.scalar ⟨rfl, rfl, rfl, .refl _⟩, ?_⟩
    exact List.forall_mem_singleton.2 (.scalar ⟨rfl, rfl, rfl, List.nil_sublist _⟩)
  obtain ⟨-, he, -⟩ := validateAt_gains h (some v) .root
  exact ⟨h, he, rfl⟩

end Schema

end Intake
