import Intake.Proofs.Asking
import Intake.Proofs.Schema.Leaves

namespace Intake

open Asking

variable {m : Type → Type}

def Answer.identifier : Answer → String
  | .ok .available => "available"
  | .ok .taken => "taken"
  | .ok .invalid => "invalid"
  | .ok .forbidden => "forbidden"
  | .error _ => "graphqlError"

lemma Registration.exists_run_remote {r : Registration Id} {ask : Json → Id Answer}
    (hr : r.check = .remote ask) (w : Json) (path : Path) :
    ∃ f : Finding, f.path = path ∧ f.identifier = Answer.identifier (ask w) ∧
      (ask w = .ok .available → r.run w path = .succeed f) ∧
      (ask w ≠ .ok .available → r.run w path = .fail f) := by
  have ho : r.run w path = r.present (Answer.outcome (ask w) path) := by
    rw [run, hr]
    rfl
  rw [ho]
  cases ask w with
  | error e => exact ⟨_, rfl, rfl, fun h => (by cases h), fun _ => rfl⟩
  | ok a =>
    cases a with
    | available => exact ⟨_, rfl, rfl, fun _ => rfl, fun h => absurd rfl h⟩
    | _ => exact ⟨_, rfl, rfl, fun h => (by cases h), fun _ => rfl⟩

namespace Admission

def value? : Admission → Option Json
  | admitted w => some w
  | _ => none

lemma value?_eq_some {a : Admission} {w : Json} : a.value? = some w ↔ a = .admitted w := by
  cases a <;> simp [value?]

end Admission

namespace Base

def noted (b : Base Id) : Base Asking :=
  ⟨b.optional, b.nullable, b.default, b.hints, b.registrations.map Registration.noted⟩

def inquiries (b : Base m) : Nat := b.registrations.countP (·.check.asks)

lemma gives_enter (b : Base Id) (kind : Kind) (v : Option Json) (path : Path)
    {inspect : Json → Asking Report} {inspect' : Json → Id Report} {asked : Json → List Json}
    (h : ∀ w, b.admission kind v = .admitted w → Gives (inspect w) (inspect' w) (asked w)) :
    Gives (b.noted.enter kind v path inspect) (b.enter kind v path inspect')
      ((b.admission kind v).value?.elim [] asked) := by
  have ha : b.noted.admission kind v = b.admission kind v := rfl
  rw [enter, enter, ha]
  cases hv : b.admission kind v with
  | exempt => exact gives_pure _
  | refused why => exact gives_pure _
  | admitted w => exact h w hv

lemma gives_conclude (b : Base Id) (parts : List Report) (w : Json) (path : Path) :
    Gives (b.noted.conclude parts w path) (b.conclude parts w path)
      (List.replicate b.inquiries w) := by
  rw [conclude, conclude, bind_pure_comp, bind_pure_comp]
  exact (Registration.gives_runAll b.registrations w path).map _

end Base

namespace Schema

def notedLeaf (leaf : Leaf Id) : Leaf Asking :=
  ⟨leaf.typeName, leaf.base.noted, leaf.typeDefault, fun v path => pure (leaf.run v path)⟩

mutual

def noted : Schema Id → Schema Asking
  | scalar kind base => scalar kind base.noted
  | array base items => array base.noted items.noted
  | object base fields => object base.noted (notedFields fields)
  | custom leaf => custom (notedLeaf leaf)

def notedFields : List (String × Schema Id) → List (String × Schema Asking)
  | [] => []
  | (name, field) :: rest => (name, field.noted) :: notedFields rest

end

def AsksTexts : Schema m → Prop
  | scalar .string _ | custom _ => True
  | scalar _ base | array base _ | object base _ => base.inquiries = 0

instance (s : Schema m) : Decidable s.AsksTexts :=
  match s with
  | scalar .string _ | custom _ => instDecidableTrue
  | scalar .number base | scalar .boolean base | scalar .file base | array base _ | object base _ =>
    inferInstanceAs (Decidable (base.inquiries = 0))

def inquiries (s : Schema m) (q : Path) : Nat :=
  match s.at? q.segments with
  | some t => t.base.inquiries
  | none => 0

def letIn (s : Schema m) (v : Option Json) (q : Path) : Option Json :=
  (s.at? q.segments).bind fun t => (t.admission (Json.at? v q.segments)).value?

def questions (s : Schema m) (v : Option Json) : List Json :=
  (s.positions v).flatMap fun q => (s.letIn v q).elim [] (List.replicate (s.inquiries q))

lemma inside_eq {s : Schema m} (hs : s.Distinct) {w : Json} {b : Branch m} (hb : b ∈ s.branches w)
    (q : Path) : s.letIn (some w) (.inside b.segment q) = b.schema.letIn b.input q ∧
      s.inquiries (.inside b.segment q) = b.schema.inquiries q := by
  obtain ⟨ht, hv⟩ := at?_inside hs hb q
  rw [letIn, letIn, inquiries, inquiries, ht, hv]
  exact ⟨rfl, rfl⟩

lemma questions_eq {s : Schema m} (hs : s.Distinct) (v : Option Json) :
    s.questions v = (s.admission v).value?.elim [] fun w =>
      ((s.branches w).flatMap fun b => b.schema.questions b.input) ++
        List.replicate s.base.inquiries w := by
  have hr : s.letIn v .root = (s.admission v).value? := rfl
  have hi : s.inquiries .root = s.base.inquiries := rfl
  by_cases ha : ∃ w, s.admission v = .admitted w
  · obtain ⟨w, ha⟩ := ha
    obtain rfl := input_admitted ha
    rw [questions, positions_admitted ha, List.flatMap_append, List.flatMap_assoc,
      List.flatMap_singleton, hr, hi, ha]
    refine congrArg (· ++ _) (List.flatMap_congr fun b hb => ?_)
    rw [List.flatMap_map, questions]
    refine List.flatMap_congr fun q _ => ?_
    obtain ⟨hl, hn⟩ := inside_eq hs hb q
    rw [hl, hn]
  · have ha := not_exists.1 ha
    rw [questions, positions_of_not_admitted ha, List.flatMap_singleton, hr]
    cases hv : s.admission v with
    | admitted w => exact absurd hv (ha w)
    | _ => rfl

lemma notedFields_eq (fields : List (String × Schema Id)) :
    notedFields fields = fields.map fun x => (x.1, x.2.noted) := by
  induction fields with
  | nil => rfl
  | cons x rest ih => rw [notedFields, ih, List.map_cons]

theorem gives_validateAt {s : Schema Id} (hd : s.All Distinct) (ht : s.All AsksTexts)
    (v : Option Json) (path : Path) :
    Gives (s.noted.validateAt v path) (s.validateAt v path) (s.questions v) := by
  induction s generalizing v path with
  | custom leaf => exact gives_pure _
  | scalar kind base =>
    rw [questions_eq hd.node, noted, validateAt, validateAt]
    exact base.gives_enter _ v path fun w _ => base.gives_conclude [] w path
  | array base items ih =>
    have h0 : base.inquiries = 0 := ht.1
    rw [questions_eq hd.node, noted, validateAt, validateAt]
    refine base.gives_enter _ v path fun w _ => ?_
    have hp := Gives.mapM fun (x : Json × Nat) (_ : x ∈ w.items.zipIdx) =>
      ih hd.2 ht.2 (some x.1) (path.index x.2)
    have hc (parts : List Report) := base.gives_conclude parts (assembleArray parts) path
    simp only [h0, List.replicate_zero] at hc
    rw [Schema.base, h0, List.replicate_zero, branches, List.flatMap_map]
    exact hp.bind (hc _)
  | object base fields ih =>
    have h0 : base.inquiries = 0 := ht.node
    rw [questions_eq hd.node, noted, validateAt, validateAt]
    refine base.gives_enter _ v path fun w _ => ?_
    have hp := Gives.mapM fun (x : String × Schema Id) (hx : x ∈ fields) =>
      (ih x hx (((all_object _ _ _).1 hd).2 x hx) (((all_object _ _ _).1 ht).2 x hx) (w.get? x.1)
        (path.field x.1)).map (x.1, ·)
    have hc (parts : List (String × Report)) :=
      base.gives_conclude (parts.map Prod.snd) (assembleObject parts) path
    simp only [h0, List.replicate_zero] at hc
    rw [validateFields_eq, validateFields_eq, notedFields_eq, List.mapM_map]
    rw [Schema.base, h0, List.replicate_zero, branches, List.flatMap_map]
    exact hp.bind (hc _)

lemma ne_null_of_admission {s : Schema m} {v : Option Json} {w : Json}
    (h : s.admission v = .admitted w) : w ≠ .null := by
  rintro rfl
  cases s with
  | custom leaf => cases h
  | _ =>
    obtain ⟨_, hn, _⟩ := (Base.admission_eq_admitted _ _ _ _).1 h
    exact Bool.noConfusion hn

lemma letIn_eq_some {s : Schema m} {v : Option Json} {q : Path} {w : Json}
    (h : s.letIn v q = some w) : ∃ t, s.at? q.segments = some t ∧
      t.admission (Json.at? v q.segments) = .admitted w := by
  obtain ⟨t, ht, hw⟩ := Option.bind_eq_some_iff.1 h
  exact ⟨t, ht, Admission.value?_eq_some.1 hw⟩

lemma letIn_bare (s : Schema m) (v : Option Json) (q : Path) :
    s.bare.letIn v q = s.letIn v q := by
  rw [letIn, letIn, at?_bare]
  cases s.at? q.segments with
  | none => rfl
  | some t => exact congrArg Admission.value? (admission_bare t _)

lemma questions_congr {s s' : Schema m} (hb : s'.bare = s.bare)
    (hn : ∀ q, s'.inquiries q = s.inquiries q) (v : Option Json) :
    s'.questions v = s.questions v := by
  have hp : s'.positions v = s.positions v := by
    rw [← positions_bare, hb, positions_bare]
  rw [questions, hp]
  refine List.flatMap_congr fun q _ => ?_
  rw [hn, ← letIn_bare, hb, letIn_bare]

lemma exists_text {s : Schema m} (ht : s.All AsksTexts) {v : Option Json} {q : Path} {w : Json}
    (h : s.letIn v q = some w) (hq : s.inquiries q ≠ 0) :
    ∃ base text, s.at? q.segments = some (scalar .string base) ∧ w = .string text := by
  obtain ⟨t, hs, hw⟩ := letIn_eq_some h
  have hn : t.base.inquiries ≠ 0 := by
    rw [inquiries, hs] at hq
    exact hq
  have ha : t.AsksTexts := (ht.at? hs).node
  cases t with
  | custom leaf => cases hw
  | array base items => exact absurd ha hn
  | object base fields => exact absurd ha hn
  | scalar kind base =>
    cases kind with
    | string =>
      obtain ⟨_, _, _, hk⟩ := (Base.admission_eq_admitted base _ _ w).1 hw
      obtain ⟨text, rfl⟩ := (Kind.accepts_iff _ w).1 hk
      exact ⟨base, text, hs, rfl⟩
    | _ => exact absurd ha hn

lemma foundAt_text {s : Schema Id} {v : Option Json} {q : Path} {base : Base Id} {w : Json}
    (hs : s.at? q.segments = some (scalar .string base)) (h : s.letIn v q = some w)
    (path : Path) :
    s.foundAt v path q = .join (base.registrations.map fun r => r.run w (path ++ q)) := by
  obtain ⟨t, ht, hw⟩ := letIn_eq_some h
  obtain rfl := Option.some.inj (hs.symm.trans ht)
  have hv : Json.at? v q.segments = some w := input_admitted hw
  rw [hv] at hw
  simp only [foundAt, hs, found, hv, hw, readAt, Option.getD_some]
  rfl

/-- A service is asked about the text of each place that lets one in, once for each check there that
asks, in the order of the places and of the checks. -/
theorem questions_account {s : Schema Id} (hd : s.All Distinct) (ht : s.All AsksTexts)
    (v : Option Json) (path : Path) :
    (∀ log, (s.noted.validateAt v path).run log =
      (s.validateAt v path, log ++ s.questions v)) ∧
    (s.validateAt v path).toOutcome = .join ((s.positions v).map (s.foundAt v path)) ∧
    (∀ q w, s.letIn v q = some w →
      Json.at? v q.segments = some w ∧ w ≠ .null ∧
      (∃ t, s.at? q.segments = some t ∧ t.admission (some w) = .admitted w) ∧
      (s.inquiries q ≠ 0 → ∃ base text, s.at? q.segments = some (scalar .string base) ∧
        w = .string text ∧
        s.foundAt v path q = .join (base.registrations.map fun r => r.run w (path ++ q)))) ∧
    (∀ (r : Registration Id) ask w p, r.check = .remote ask → ∃ f : Finding, f.path = p ∧
      f.identifier = Answer.identifier (ask w) ∧
      (ask w = .ok .available → r.run w p = .succeed f) ∧
      (ask w ≠ .ok .available → r.run w p = .fail f)) ∧
    ∀ s' : Schema Id, s'.bare = s.bare → (∀ q, s'.inquiries q = s.inquiries q) →
      s'.questions v = s.questions v := by
  refine ⟨gives_validateAt hd ht v path, findings_eq_join hd v path, fun q w h => ?_,
    fun r ask w p hr => r.exists_run_remote hr w p, fun s' hb hn => questions_congr hb hn v⟩
  obtain ⟨t, hs, hw⟩ := letIn_eq_some h
  have hv := input_admitted hw
  rw [hv] at hw
  refine ⟨hv, ne_null_of_admission hw, ⟨t, hs, hw⟩, fun hq => ?_⟩
  obtain ⟨base, text, hs, rfl⟩ := exists_text ht h hq
  exact ⟨base, text, hs, rfl, foundAt_text hs h path⟩

theorem questions_account_names :
    let ask : Json → Id Answer := fun v =>
      .ok (if v.same (.string "ada") then .available else .taken)
    let offline : Json → Id Answer := fun _ => .error (.transport "connection refused")
    let guest : Schema Id := custom ⟨"guest", .empty, none, fun v _ => .valid v⟩
    let s : Schema Id := emptyObject.applyAll [
      .field "names" (arrayOf
        (((string.remoteCheck ask).limit (.minimumLength 4)).remoteCheck offline)),
      .field "guest" guest, .field "email" (string.remoteCheck ask),
      .field "nick" (string.remoteCheck ask).optional]
    let v := Json.object [("names", .array [.string "ada", .null, .string "grace"]),
      ("email", .string ""), ("nick", .bool true)]
    let asked : List Json := [.string "ada", .string "ada", .string "grace", .string "grace"]
    s.All Distinct ∧ s.All AsksTexts ∧
      (s.noted.validateAt (some v) .root).run [] = (s.validateAt (some v) .root, asked) ∧
      (s.validateAt (some v) .root).successes.map Finding.identifier = ["available"] ∧
      (s.validateAt (some v) .root).errors.map Finding.identifier =
        ["tooShort", "graphqlError", "required", "taken", "graphqlError", "required",
          "invalidType"] := by
  intro ask offline guest s v asked
  have hd : s.All Distinct := by decide
  have ht : s.All AsksTexts := by decide
  obtain ⟨hq, -⟩ := questions_account hd ht (some v) .root
  exact ⟨hd, ht, hq [], by decide, by decide⟩

end Schema

end Intake
