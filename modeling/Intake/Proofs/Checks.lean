import Intake.Proofs.Schema.Projection
import Intake.Proofs.Text.EmailAddress

namespace Intake

namespace Limit

def FromBelow : Limit → Binary64 → Prop
  | .finite b, x => b.quanta ≤ x.quanta
  | .infinite negative, _ => negative = true
  | .undefined, _ => True

def FromAbove : Limit → Binary64 → Prop
  | .finite b, x => x.quanta ≤ b.quanta
  | .infinite negative, _ => negative = false
  | .undefined, _ => True

lemma exceeds_iff (limit : Limit) (x : Binary64) :
    limit.exceeds x = false ↔ limit.FromBelow x := by
  cases limit <;> simp [exceeds, FromBelow]

lemma exceededBy_iff (limit : Limit) (x : Binary64) :
    limit.exceededBy x = false ↔ limit.FromAbove x := by
  cases limit <;> simp [exceededBy, FromAbove]

end Limit

lemma Binary64.isWhole_iff (x : Binary64) :
    x.isWhole = true ↔ (quantaPerUnit : Int) ∣ x.quanta := by
  rw [isWhole, beq_iff_eq, Int.dvd_iff_emod_eq_zero]

namespace Constraint

def kind : Constraint → Kind
  | minimumLength _ | maximumLength _ | notEmpty => .scalar .string
  | minimum _ | maximum _ | integer | positive | negative => .scalar .number
  | mimeType _ | maximumSize _ | minimumSize _ => .scalar .file
  | minimumItems _ | maximumItems _ => .array

def Holds : Constraint → Json → Prop
  | minimumLength n, v => ∃ s, v = .string s ∧ n ≤ unitLength s
  | maximumLength n, v => ∃ s, v = .string s ∧ unitLength s ≤ n
  | notEmpty, v => ∃ s, v = .string s ∧ s ≠ ""
  | minimum limit, v => ∃ n, v = .number n ∧ limit.FromBelow n.toBinary64
  | maximum limit, v => ∃ n, v = .number n ∧ limit.FromAbove n.toBinary64
  | integer, v => ∃ n, v = .number n ∧ (Binary64.quantaPerUnit : Int) ∣ n.toBinary64.quanta
  | positive, v => ∃ n, v = .number n ∧ 0 < n.toBinary64.quanta
  | negative, v => ∃ n, v = .number n ∧ n.toBinary64.quanta < 0
  | mimeType allowed, v => ∃ file, FileInfo.ofJson? v = some file ∧ file.mimeType ∈ allowed
  | maximumSize bytes, v => ∃ file, FileInfo.ofJson? v = some file ∧ file.size.toNat ≤ bytes
  | minimumSize bytes, v => ∃ file, FileInfo.ofJson? v = some file ∧ bytes ≤ file.size.toNat
  | minimumItems n, v => ∃ items, v = .array items ∧ n ≤ items.length
  | maximumItems n, v => ∃ items, v = .array items ∧ items.length ≤ n

theorem accepts_iff (c : Constraint) {v : Json} (hv : c.kind.Describes v) :
    c.accepts v = true ↔ c.Holds v := by
  cases c with
  | minimumLength n | maximumLength n | notEmpty =>
    obtain ⟨s, rfl⟩ := hv
    rw [accepts, decide_eq_true_iff]
    simp [Holds]
  | minimumItems n | maximumItems n =>
    obtain ⟨items, rfl⟩ := hv
    rw [accepts, decide_eq_true_iff]
    simp [Holds]
  | minimum limit | maximum limit | positive | negative =>
    obtain ⟨n, rfl⟩ := hv
    simp [accepts, ofNumber, Holds, Limit.exceeds_iff, Limit.exceededBy_iff]
  | integer =>
    obtain ⟨n, rfl⟩ := hv
    refine (Binary64.isWhole_iff _).trans ⟨fun h => ⟨n, rfl, h⟩, ?_⟩
    rintro ⟨n', hn, h⟩
    obtain rfl := Json.number.inj hn
    exact h
  | mimeType allowed | maximumSize bytes | minimumSize bytes =>
    obtain ⟨file, hf⟩ := hv
    simp [accepts, ofFile, Holds, hf]

lemma errors_outcome (c : Constraint) {v : Json} (hv : c.kind.Describes v) (path : Path) :
    (c.outcome v path).errors = [] ↔ c.Holds v := by
  rw [← c.accepts_iff hv, outcome]
  cases c.accepts v <;> simp [Outcome.fail, Outcome.pass]

end Constraint

namespace Check

variable {m : Type → Type}

def Suits : Check m → Kind → Prop
  | limit c, kind => c.kind = kind
  | emailAddress, kind | remote _, kind => kind = .scalar .string
  | custom _, _ => False

instance (c : Check m) (kind : Kind) : Decidable (c.Suits kind) :=
  match c with
  | limit c => inferInstanceAs (Decidable (c.kind = kind))
  | emailAddress | remote _ => inferInstanceAs (Decidable (kind = .scalar .string))
  | custom _ => instDecidableFalse

def Holds : Check Id → Json → Prop
  | limit c, v => c.Holds v
  | emailAddress, v => ∃ s, v = .string s ∧ (s = "" ∨ IsAddress s.toList)
  | remote ask, v => Id.run (ask v) = .ok .available
  | custom _, _ => False

lemma errors_emailOutcome (s : String) (path : Path) :
    (emailOutcome s path).errors = [] ↔ Check.emailAddress.Holds (.string s) := by
  simp only [Holds, ← isEmailAddress_iff, Json.string.injEq, exists_eq_left']
  simp only [emailOutcome]
  split_ifs with he ha
  · simp [he, Outcome.pass]
  · simp [ha, Outcome.succeed]
  · simp [he, ha, Outcome.fail]

lemma errors_answer (a : Answer) (path : Path) :
    (a.outcome path).errors = [] ↔ a = .ok .available := by
  cases a with
  | error e => simp [Answer.outcome, Outcome.fail]
  | ok a => cases a <;> simp [Answer.outcome, Availability.outcome, Outcome.fail, Outcome.succeed]

theorem errors_run {c : Check Id} {kind : Kind} (hc : c.Suits kind) {v : Json}
    (hv : kind.Describes v) (path : Path) : (c.run v path).errors = [] ↔ c.Holds v := by
  cases c with
  | limit c =>
    cases hc
    exact c.errors_outcome hv path
  | emailAddress =>
    cases hc
    obtain ⟨s, rfl⟩ := hv
    exact errors_emailOutcome s path
  | remote ask => exact errors_answer (ask v) path
  | custom run => exact hc.elim

end Check

lemma Registration.errors_present {m : Type → Type} (r : Registration m) (o : Outcome) :
    (r.present o).errors = [] ↔ o.errors = [] := by
  simp [present]

end Intake
