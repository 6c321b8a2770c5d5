import Intake.Proofs.Schema.Branches
import Mathlib.Data.List.Forall2

/-! Two schemas of one shape, side by side: what relates their reports at one node relates them as a
whole. -/

namespace Intake

namespace Schema

variable {m : Type → Type}

inductive Matches (R : Base m → Base m → Prop) : Schema m → Schema m → Prop
  | scalar {kind base base'} : R base base' → Matches R (scalar kind base) (scalar kind base')
  | array {base base' items items'} : R base base' → Matches R items items' →
      Matches R (array base items) (array base' items')
  | object {base base' fields fields'} : R base base' →
      fields.map Prod.fst = fields'.map Prod.fst →
      (∀ x ∈ fields.zip fields', Matches R x.1.2 x.2.2) →
      Matches R (object base fields) (object base' fields')

end Schema

namespace Base

lemma conclude_pure (b : Base Id) (parts : List Report) (w : Json) (path : Path) :
    b.conclude parts w path = pure (.ofOutcome (.join (parts.map Report.toOutcome) ++
      .join (b.registrations.map fun r => r.run w path)) (some w)) := by
  rw [conclude_eq, conclusion]
  exact congrArg (fun own => Report.ofOutcome (_ ++ Outcome.join own) (some w)) List.idRun_mapM

end Base

/-- Related bases report in a related way on one value, if the reports on its parts are related. -/
structure Simulation (R : Base Id → Base Id → Prop) (Q : Report → Report → Prop) : Prop where
  enter : ∀ {b b' kind v path} {inspect inspect' : Json → Id Report}, R b b' →
    (∀ w, b.admission kind v = .admitted w → Q (inspect w) (inspect' w)) →
    Q (b.enter kind v path inspect) (b'.enter kind v path inspect')
  conclude : ∀ {b b' parts parts' path} (assemble : List (Option Json) → Json), R b b' →
    List.Forall₂ Q parts parts' →
    Q (b.conclude parts (assemble (parts.map Report.value)) path)
      (b'.conclude parts' (assemble (parts'.map Report.value)) path)

namespace Schema

def elements (items : Schema Id) (w : Json) (path : Path) : List Report :=
  w.items.zipIdx.map fun x => items.validateAt (some x.1) (path.index x.2)

def members (fields : List (String × Schema Id)) (w : Json) (path : Path) : List Report :=
  fields.map fun x => x.2.validateAt (w.get? x.1) (path.field x.1)

lemma validateAt_array (base : Base Id) (items : Schema Id) (v : Option Json) (path : Path) :
    (array base items).validateAt v path = base.enter .array v path fun w =>
      let parts := items.elements w path
      base.conclude parts (.array ((parts.map Report.value).map (·.getD .null))) path := by
  refine congrArg (base.enter .array v path) (funext fun w => ?_)
  have hp : Id.run (w.items.zipIdx.mapM fun x =>
      items.validateAt (some x.1) (path.index x.2)) = items.elements w path := List.idRun_mapM
  have ha : assembleArray (items.elements w path) =
      .array (((items.elements w path).map Report.value).map (·.getD .null)) := by
    rw [assembleArray, List.map_map]
    rfl
  exact (congrArg (fun parts => base.conclude parts (assembleArray parts) path) hp).trans
    (congrArg (base.conclude _ · path) ha)

lemma validateAt_object (base : Base Id) (fields : List (String × Schema Id)) (v : Option Json)
    (path : Path) : (object base fields).validateAt v path = base.enter .object v path fun w =>
      let parts := members fields w path
      base.conclude parts (.object (((fields.map Prod.fst).zip (parts.map Report.value)).filterMap
        fun x => x.2.map (x.1, ·))) path := by
  refine congrArg (base.enter .object v path) (funext fun w => ?_)
  have hp : Id.run (validateFields fields w path) =
      fields.map fun x => (x.1, x.2.validateAt (w.get? x.1) (path.field x.1)) := by
    rw [validateFields_eq]
    exact List.idRun_mapM
  refine (congrArg (fun parts : List (String × Report) =>
    base.conclude (parts.map Prod.snd) (assembleObject parts) path) hp).trans ?_
  simp only [assembleObject, members, List.map_map, List.zip_map', List.filterMap_map]
  rfl

theorem Matches.validateAt {R : Base Id → Base Id → Prop} {Q : Report → Report → Prop}
    (hq : Simulation R Q) {s s' : Schema Id} (h : s.Matches R s') (v : Option Json) (path : Path) :
    Q (s.validateAt v path) (s'.validateAt v path) := by
  induction h generalizing v path with
  | scalar hb => exact hq.enter hb fun w _ => hq.conclude (fun _ => w) hb .nil
  | @array base base' items items' hb _ ih =>
    have hp (w : Json) : List.Forall₂ Q (items.elements w path) (items'.elements w path) := by
      rw [elements, elements, List.forall₂_map_left_iff, List.forall₂_map_right_iff,
        List.forall₂_same]
      exact fun x _ => ih (some x.1) (path.index x.2)
    rw [validateAt_array, validateAt_array]
    exact hq.enter hb fun w _ => hq.conclude (fun values => .array (values.map (·.getD .null)))
      hb (hp w)
  | @object base base' fields fields' hb hn _ ih =>
    have he : List.Forall₂ (· = ·) (fields.map Prod.fst) (fields'.map Prod.fst) := by
      rw [List.forall₂_eq_eq_eq]
      exact hn
    rw [List.forall₂_map_left_iff, List.forall₂_map_right_iff, List.forall₂_iff_zip] at he
    have hp (w : Json) : List.Forall₂ Q (members fields w path) (members fields' w path) := by
      rw [members, members, List.forall₂_map_left_iff, List.forall₂_map_right_iff,
        List.forall₂_iff_zip]
      refine ⟨he.1, fun {x x'} hx => ?_⟩
      rw [he.2 hx]
      exact ih (x, x') hx _ _
    rw [validateAt_object, validateAt_object, ← hn]
    exact hq.enter hb fun w _ => hq.conclude
      (fun values => .object (((fields.map Prod.fst).zip values).filterMap
        fun x => x.2.map (x.1, ·))) hb (hp w)

end Schema

end Intake
