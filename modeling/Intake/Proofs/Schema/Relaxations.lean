import Intake.Proofs.Schema.Matching

namespace Intake

variable {m : Type → Type}

structure Base.Relaxes (b b' : Base m) : Prop where
  optional : b.optional = true → b'.optional = true
  nullable : b.nullable = true → b'.nullable = true
  default : b'.default = b.default
  registrations : b'.registrations = b.registrations

namespace Base.Relaxes

variable {b b' : Base m} {kind : Kind} {v : Option Json}

lemma exempt (h : b.Relaxes b') (ha : b.admission kind v = .exempt) :
    b'.admission kind v = .exempt := by
  rw [admission_eq_exempt] at ha ⊢
  exact ha.imp (And.imp_right h.optional) (And.imp_right (Or.imp h.optional h.nullable))

lemma admitted {w : Json} (h : b.Relaxes b') (ha : b.admission kind v = .admitted w) :
    b'.admission kind v = .admitted w := by
  rw [admission_eq_admitted] at ha ⊢
  obtain ⟨hv, hn, he, hk⟩ := ha
  refine ⟨hv, hn, ?_, hk⟩
  rw [Bool.and_eq_false_iff, Bool.not_eq_false'] at he ⊢
  exact he.imp_right h.optional

end Base.Relaxes

namespace Report

def Kept (r r' : Report) : Prop := r.isValid = true → r' = r

lemma simulation_relaxes : Simulation Base.Relaxes Kept where
  enter := by
    intro b b' kind v path inspect inspect' hb hi
    rw [Base.enter, Base.enter]
    cases ha : b.admission kind v with
    | exempt =>
      rw [hb.exempt ha]
      exact fun _ => rfl
    | refused why => exact fun hr => absurd hr Bool.false_ne_true
    | admitted w =>
      rw [hb.admitted ha]
      exact hi w ha
  conclude := by
    intro b b' parts parts' path assemble hb hp
    rw [Base.conclude_pure, Base.conclude_pure, hb.registrations]
    intro hr
    rw [isValid_iff] at hr
    obtain ⟨hi, -⟩ := List.append_eq_nil_iff.1 hr
    -- what is valid as a whole is valid in all its parts, so none of these has changed
    have hv (part : Report) (hm : part ∈ parts) : part.isValid = true :=
      part.isValid_iff.2 (List.flatMap_eq_nil_iff.1 hi _ (List.mem_map_of_mem hm))
    have he : parts = parts' := by
      rw [← List.forall₂_eq_eq_eq]
      exact ((List.forall₂_and_left _ _).2 ⟨hv, hp⟩).imp fun _ _ h => (h.2 h.1).symm
    rw [he]

end Report

namespace Schema

abbrev Relaxes : Schema m → Schema m → Prop := Matches Base.Relaxes

theorem validateAt_relaxes {s s' : Schema Id} (h : s.Relaxes s') {v : Option Json} {path : Path}
    (hv : (s.validateAt v path).isValid = true) : s'.validateAt v path = s.validateAt v path :=
  h.validateAt Report.simulation_relaxes v path hv

theorem validateAt_relaxes_signUp :
    let emails := (((arrayOf string.emailAddress.nullable).limit (.minimumItems 1)).message
      "Needed.").optional
    let s := (emptyObject.applyAll [.field "name" (string.limit (.minimumLength 3)).optional,
      .field "emails" emails, .field "age" ((number.limit .integer).optional).nullable,
      .field "avatar" file.nullable]).nullable
    let v := Json.object [("emails", .array [.string "ada@home.org"]), ("name", .string "Ada"),
      ("avatar", .null), ("note", .null)]
    signUp.Relaxes s ∧ (signUp.validateAt (some v) .root).isValid = true ∧
      s.validateAt (some v) .root = signUp.validateAt (some v) .root ∧
      (s.validateAt (some (.object [])) .root).errors.length = 1 := by
  intro emails s v
  have hb (b : Base Id) (optional nullable : Bool) :
      b.Relaxes { b with optional := b.optional || optional, nullable := b.nullable || nullable } :=
    ⟨fun h => by simp [h], fun h => by simp [h], rfl, rfl⟩
  have h : signUp.Relaxes s := by
    refine .object (hb _ false true) rfl ?_
    refine List.forall_mem_cons.2 ⟨.scalar (hb _ true false), ?_⟩
    refine List.forall_mem_cons.2 ⟨.array (hb _ true false) (.scalar (hb _ false true)), ?_⟩
    refine List.forall_mem_cons.2 ⟨.scalar (hb _ false true), ?_⟩
    exact List.forall_mem_singleton.2 (.scalar (hb _ false false))
  have hv : (signUp.validateAt (some v) .root).isValid = true := by decide
  exact ⟨h, hv, validateAt_relaxes h hv, by decide⟩

end Schema

end Intake
