import Intake.Proofs.Keyed
import Intake.Schema.Build

namespace Intake

variable {m : Type → Type}

namespace Schema

mutual

@[induction_eliminator]
theorem induct {motive : Schema m → Prop}
    (scalar : ∀ kind base, motive (.scalar kind base))
    (array : ∀ base items, motive items → motive (.array base items))
    (object : ∀ base fields, (∀ x ∈ fields, motive x.2) → motive (.object base fields))
    (custom : ∀ leaf, motive (.custom leaf)) : ∀ s, motive s
  | .scalar kind base => scalar kind base
  | .array base items => array base items (induct scalar array object custom items)
  | .object base fields => object base fields (inductFields scalar array object custom fields)
  | .custom leaf => custom leaf

theorem inductFields {motive : Schema m → Prop}
    (scalar : ∀ kind base, motive (.scalar kind base))
    (array : ∀ base items, motive items → motive (.array base items))
    (object : ∀ base fields, (∀ x ∈ fields, motive x.2) → motive (.object base fields))
    (custom : ∀ leaf, motive (.custom leaf)) :
    ∀ fields : List (String × Schema m), ∀ x ∈ fields, motive x.2
  | [] => fun _ h => absurd h List.not_mem_nil
  | (_, s) :: rest => List.forall_mem_cons.2
    ⟨induct scalar array object custom s, inductFields scalar array object custom rest⟩

end

mutual

def All (P : Schema m → Prop) : Schema m → Prop
  | scalar kind base => P (scalar kind base)
  | array base items => P (array base items) ∧ items.All P
  | object base fields => P (object base fields) ∧ AllFields P fields
  | custom leaf => P (custom leaf)

def AllFields (P : Schema m → Prop) : List (String × Schema m) → Prop
  | [] => True
  | (_, s) :: rest => s.All P ∧ AllFields P rest

end

mutual

instance decidableAll (P : Schema m → Prop) [DecidablePred P] : (s : Schema m) → Decidable (s.All P)
  | scalar kind base => inferInstanceAs (Decidable (P (scalar kind base)))
  | array base items =>
    have := decidableAll P items
    inferInstanceAs (Decidable (P (array base items) ∧ items.All P))
  | object base fields =>
    have := decidableAllFields P fields
    inferInstanceAs (Decidable (P (object base fields) ∧ AllFields P fields))
  | custom leaf => inferInstanceAs (Decidable (P (custom leaf)))

instance decidableAllFields (P : Schema m → Prop) [DecidablePred P] :
    (fields : List (String × Schema m)) → Decidable (AllFields P fields)
  | [] => instDecidableTrue
  | (_, s) :: rest =>
    have := decidableAll P s
    have := decidableAllFields P rest
    inferInstanceAs (Decidable (s.All P ∧ AllFields P rest))

end

lemma allFields_iff (P : Schema m → Prop) (fields : List (String × Schema m)) :
    AllFields P fields ↔ ∀ x ∈ fields, x.2.All P := by
  induction fields with
  | nil => simp [AllFields]
  | cons x rest ih => simp [AllFields, ih]

@[simp] lemma all_scalar (P : Schema m → Prop) (kind : ScalarKind) (base : Base m) :
    (scalar kind base).All P ↔ P (scalar kind base) := Iff.rfl

@[simp] lemma all_array (P : Schema m → Prop) (base : Base m) (items : Schema m) :
    (array base items).All P ↔ P (array base items) ∧ items.All P := Iff.rfl

@[simp] lemma all_object (P : Schema m → Prop) (base : Base m) (fields : List (String × Schema m)) :
    (object base fields).All P ↔ P (object base fields) ∧ ∀ x ∈ fields, x.2.All P :=
  and_congr Iff.rfl (allFields_iff P fields)

@[simp] lemma all_custom (P : Schema m → Prop) (leaf : Leaf m) :
    (custom leaf).All P ↔ P (custom leaf) := Iff.rfl

lemma All.mono {P Q : Schema m → Prop} (h : ∀ s, P s → Q s) {s : Schema m} (hs : s.All P) :
    s.All Q := by
  induction s with
  | scalar kind base => exact h _ hs
  | array base items ih => exact ⟨h _ hs.1, ih hs.2⟩
  | object base fields ih =>
    rw [all_object] at hs ⊢
    exact ⟨h _ hs.1, fun x hx => ih x hx (hs.2 x hx)⟩
  | custom leaf => exact h _ hs

def Proper : Schema m → Prop
  | scalar _ _ | array _ _ => True
  | object _ fields => (fields.map Prod.fst).Nodup
  | custom _ => False

instance (s : Schema m) : Decidable s.Proper :=
  match s with
  | scalar _ _ | array _ _ => instDecidableTrue
  | object _ fields => inferInstanceAs (Decidable (fields.map Prod.fst).Nodup)
  | custom _ => instDecidableFalse

def Distinct (s : Schema m) : Prop := (s.fields.map Prod.fst).Nodup

instance (s : Schema m) : Decidable s.Distinct :=
  inferInstanceAs (Decidable (s.fields.map Prod.fst).Nodup)

lemma Proper.distinct {s : Schema m} (hs : s.Proper) : s.Distinct := by
  cases s with
  | object base fields => exact hs
  | _ => exact List.nodup_nil

def Standard (s : Schema m) : Prop := s.All Proper

instance (s : Schema m) : Decidable s.Standard := decidableAll Proper s

lemma all_modifyBase {P : Schema m → Prop} {f : Base m → Base m}
    (hf : ∀ s, P s → P (s.modifyBase f)) {s : Schema m} (hs : s.All P) :
    (s.modifyBase f).All P := by
  cases s with
  | scalar kind base => exact hf _ hs
  | array base items => exact ⟨hf _ hs.1, hs.2⟩
  | object base fields => exact ⟨hf _ hs.1, hs.2⟩
  | custom leaf => exact hf _ hs

lemma proper_modifyBase (f : Base m → Base m) (s : Schema m) (hs : s.Proper) :
    (s.modifyBase f).Proper := by
  cases s <;> exact hs

lemma base_modifyBase (f : Base m → Base m) (s : Schema m) : (s.modifyBase f).base = f s.base := by
  cases s <;> rfl

lemma standard_field {s field : Schema m} (name : String) (hs : s.Standard)
    (hf : field.Standard) : (s.field name field).Standard := by
  cases s with
  | object base fields =>
    obtain ⟨hn, hr⟩ := (all_object _ _ _).1 hs
    refine (all_object _ _ _).2 ⟨nodup_assign name field hn, fun x hx => ?_⟩
    rcases mem_of_mem_assign hx with rfl | hx
    · exact hf
    · exact hr x hx
  | _ => exact hs

lemma standard_apply {s : Schema m} {step : Step m} (hs : s.Standard)
    (hf : ∀ name field, step = .field name field → field.Standard) : (s.apply step).Standard := by
  cases step with
  | field name field => exact standard_field name hs (hf name field rfl)
  | _ => exact all_modifyBase (proper_modifyBase _) hs

theorem standard_applyAll {s : Schema m} {steps : List (Step m)} (hs : s.Standard)
    (hf : ∀ name field, .field name field ∈ steps → field.Standard) :
    (s.applyAll steps).Standard := by
  induction steps generalizing s with
  | nil => exact hs
  | cons step rest ih =>
    refine ih (standard_apply hs ?_) fun name field h => hf name field (List.mem_cons_of_mem _ h)
    rintro name field rfl
    exact hf name field List.mem_cons_self

def signUp : Schema Id :=
  emptyObject.applyAll [.field "name" (string.limit (.minimumLength 3)),
    .field "emails" (((arrayOf string.emailAddress).limit (.minimumItems 1)).message "Needed."),
    .field "age" ((number.limit .integer).optional), .field "avatar" file.nullable]

lemma standard_signUp : signUp.Standard := by decide

def part? : Schema m → Segment → Option (Schema m)
  | object _ fields, .field name => fields.lookup name
  | array _ items, .index _ => some items
  | _, _ => none

def at? : Schema m → List Segment → Option (Schema m)
  | s, [] => some s
  | s, segment :: rest => (s.part? segment).bind (at? · rest)

@[simp] lemma at?_nil (s : Schema m) : s.at? [] = some s := rfl

@[simp] lemma at?_cons (s : Schema m) (segment : Segment) (rest : List Segment) :
    s.at? (segment :: rest) = (s.part? segment).bind (at? · rest) := rfl

end Schema

def Json.part? (v : Json) : Segment → Option Json
  | .field name => v.get? name
  | .index position => v.items[position]?

def Json.at? : Option Json → List Segment → Option Json
  | v, [] => v
  | v, segment :: rest => at? (v.bind (·.part? segment)) rest

namespace Json

@[simp] lemma at?_nil (v : Option Json) : at? v [] = v := rfl

@[simp] lemma at?_cons (v : Option Json) (segment : Segment) (rest : List Segment) :
    at? v (segment :: rest) = at? (v.bind (·.part? segment)) rest := rfl

end Json

end Intake
