import Intake.Proofs.FileInfo
import Intake.Proofs.Schema.Conformance

namespace Intake

namespace Json

variable {v w : Json}

lemma Alike.isNull_eq (h : v.Alike w) : v.isNull = w.isNull := by
  cases v <;> cases w <;> first | rfl | exact absurd h.same Bool.false_ne_true

lemma Alike.isEmptyText_eq (h : v.Alike w) : v.isEmptyText = w.isEmptyText := by
  cases v with
  | string s => rw [h.eq_string]
  | _ => cases w <;> first | rfl | exact absurd h.same Bool.false_ne_true

lemma Alike.exists_number {n : Number} (h : (number n).Alike w) :
    ∃ n', w = number n' ∧ n'.toBinary64.quanta = n.toBinary64.quanta := by
  cases n with
  | whole n => exact ⟨_, h.eq_whole, rfl⟩
  | double x =>
    cases w with
    | number n' =>
      cases n' with
      | double y => exact ⟨_, rfl, (beq_iff_eq.1 h.same).symm⟩
      | whole n => exact absurd h.same Bool.false_ne_true
    | _ => exact absurd h.same Bool.false_ne_true

lemma Alike.exists_array {xs : List Json} (h : (array xs).Alike w) :
    ∃ ys, w = array ys ∧ ys.length = xs.length := by
  cases w with
  | array ys => exact ⟨ys, rfl, (alike_array.1 h).length_eq.symm⟩
  | _ => exact absurd h.same Bool.false_ne_true

end Json

lemma Kind.accepts_eq_of_alike (kind : Kind) {v w : Json} (h : v.Alike w) :
    kind.accepts v = kind.accepts w := by
  cases kind with
  | scalar kind =>
    cases kind with
    | file => simp only [accepts, FileInfo.ofJson?_eq_of_alike h]
    | _ => cases v <;> cases w <;> first | rfl | exact absurd h.same Bool.false_ne_true
  | _ => cases v <;> cases w <;> first | rfl | exact absurd h.same Bool.false_ne_true

namespace Constraint

lemma ofNumber_eq_of_alike {test : Binary64 → Bool}
    (ht : ∀ x y : Binary64, x.quanta = y.quanta → test x = test y) {v w : Json}
    (hv : (Kind.scalar .number).Describes v) (h : v.Alike w) :
    ofNumber test v = ofNumber test w := by
  obtain ⟨n, rfl⟩ := hv
  obtain ⟨n', rfl, hq⟩ := h.exists_number
  exact ht _ _ hq.symm

lemma accepts_eq_of_alike (c : Constraint) {v w : Json} (hv : c.kind.Describes v)
    (h : v.Alike w) : c.accepts v = c.accepts w := by
  cases c with
  | minimumLength n | maximumLength n | notEmpty =>
    obtain ⟨s, rfl⟩ := hv
    rw [h.eq_string]
  | minimum limit | maximum limit =>
    simp only [accepts]
    refine ofNumber_eq_of_alike (fun x y hq => ?_) hv h
    cases limit <;> simp only [Limit.exceeds, Limit.exceededBy, hq]
  | integer | positive | negative =>
    simp only [accepts]
    refine ofNumber_eq_of_alike (fun x y hq => ?_) hv h
    simp only [Binary64.isWhole, hq]
  | mimeType allowed | maximumSize bytes | minimumSize bytes =>
    simp only [accepts, ofFile, FileInfo.ofJson?_eq_of_alike h]
  | minimumItems n | maximumItems n =>
    obtain ⟨xs, rfl⟩ := hv
    obtain ⟨ys, rfl, hl⟩ := h.exists_array
    have hi : (Json.array ys).items.length = (Json.array xs).items.length := hl
    simp only [accepts, hi]

end Constraint

variable {m : Type → Type}

inductive Admission.Agrees : Admission → Admission → Prop
  | exempt : Agrees .exempt .exempt
  | refused why : Agrees (.refused why) (.refused why)
  | admitted v w : Agrees (.admitted v) (.admitted w)

namespace Admission

lemma Agrees.refl (a : Admission) : a.Agrees a := by
  cases a <;> constructor

lemma Agrees.exists_admitted {a a' : Admission} (h : a.Agrees a') {w : Json}
    (ha : a' = .admitted w) : ∃ v, a = .admitted v := by
  subst ha
  cases h with
  | admitted v => exact ⟨v, rfl⟩

end Admission

namespace Base

lemma agrees_of_alike (b : Base m) (kind : Kind) {v w : Json} (h : v.Alike w) :
    (b.admission kind (some v)).Agrees (b.admission kind (some w)) := by
  simp only [admission, ← h.isNull_eq, ← h.isEmptyText_eq, ← kind.accepts_eq_of_alike h,
    Refusal.ofKind, ← h.typeName_eq]
  split_ifs <;> constructor

end Base

namespace Check

variable [Monad m]

def Respects (c : Check m) (kind : Kind) : Prop :=
  ∀ v w path, kind.Describes v → v.Alike w → c.run v path = c.run w path

lemma Suits.respects {c : Check m} {kind : Kind} (hc : c.Suits kind) : c.Respects kind := by
  intro v w path hv h
  cases c with
  | limit c =>
    obtain rfl := hc
    simp only [run, Constraint.outcome, c.accepts_eq_of_alike hv h]
  | emailAddress | remote ask =>
    obtain rfl := hc
    obtain ⟨s, rfl⟩ := hv
    rw [h.eq_string]
  | custom run => exact hc.elim

end Check

namespace Schema

lemma agrees_of_rel (s : Schema m) {v w : Option Json} (h : Option.Rel Json.Alike v w) :
    (s.admission v).Agrees (s.admission w) := by
  cases h with
  | none => exact .refl _
  | some h =>
    cases s with
    | custom leaf => exact .exempt
    | _ => exact Base.agrees_of_alike _ _ h

variable [Monad m]

def RespectsNode : Schema m → Prop
  | scalar kind base => ∀ r ∈ base.registrations, r.check.Respects (.scalar kind)
  | array base _ => ∀ r ∈ base.registrations, r.check.Respects .array
  | object base _ => ∀ r ∈ base.registrations, r.check.Respects .object
  | custom _ => True

def Respects (s : Schema m) : Prop := s.All RespectsNode

lemma BuiltIn.respects {s : Schema m} (hs : s.BuiltIn) : s.Respects := by
  apply All.mono _ hs
  intro t ht
  cases t with
  | custom leaf => trivial
  | _ => exact fun r hr => (ht r hr).respects

lemma ownChecks_of_alike [LawfulMonad m] {s s' : Schema m} (hb : s.base = s'.base)
    (hs : s.RespectsNode) {v : Option Json} {x y : Json} (ha : s.admission v = .admitted x)
    (h : (s.assembled x).Alike (s'.assembled y)) (path : Path) :
    s.ownChecks x path = s'.ownChecks y path := by
  have hr : ∀ r ∈ s.base.registrations,
      r.check.run (s.assembled x) path = r.check.run (s'.assembled y) path := by
    intro r hr
    cases s with
    | scalar kind base =>
      obtain ⟨_, _, _, hk⟩ := (Base.admission_eq_admitted base _ v x).1 ha
      exact hs r hr _ _ path ((Kind.accepts_iff _ x).1 hk) h
    | array base items => exact hs r hr _ _ path ⟨_, rfl⟩ h
    | object base fields => exact hs r hr _ _ path ⟨_, rfl⟩ h
    | custom leaf => cases ha
  rw [ownChecks, ownChecks, mapM_congr fun r h => congrArg (r.present <$> ·) (hr r h), hb]

end Schema

end Intake
