import Intake.Report.Basic
import Intake.Schema.Basic

/-! Validation: a value is let in, exempted or refused; then its parts are validated, and last the
checks run on what was read of the parts. -/

namespace Intake

inductive Refusal where
  | required
  | wrongKind (expected received : String)

namespace Refusal

def ofKind (expected : String) (v : Json) : Refusal := .wrongKind expected v.typeName

def identifier : Refusal → String
  | required => "required"
  | wrongKind .. => "invalidType"

def message : Refusal → String
  | required => "Required."
  | wrongKind expected received => "Expected " ++ expected ++ ", received " ++ received

def finding (r : Refusal) (path : Path) : Finding := ⟨path, r.identifier, r.message, none⟩

end Refusal

inductive Admission where
  | exempt
  | refused (why : Refusal)
  | admitted (value : Json)

variable {m : Type → Type}

namespace Base

/-- An optional schema exempts what is absent or null, a nullable one what is null. -/
def admission (b : Base m) (kind : Kind) : Option Json → Admission
  | none => if b.optional then .exempt else .refused .required
  | some v =>
    if v.isNull then if b.optional || b.nullable then .exempt else .refused .required
    else if v.isEmptyText && !b.optional then .refused .required
    else if kind.accepts v then .admitted v
    else .refused (.ofKind kind.name v)

def enter [Monad m] (b : Base m) (kind : Kind) (v : Option Json) (path : Path)
    (inspect : Json → m Report) : m Report :=
  match b.admission kind v with
  | .exempt => return .valid v
  | .refused why => return .invalid v (why.finding path)
  | .admitted value => inspect value

def conclude [Monad m] (b : Base m) (parts : List Report) (value : Json) (path : Path) :
    m Report := do
  let inner := parts.foldl (fun report part => (Report.absorb report part).2) (Report.valid none)
  let own ← Registration.runAll b.registrations value path
  return (inner.extend own).setValue (some value)

end Base

def assembleObject (parts : List (String × Report)) : Json :=
  .object (parts.filterMap fun (name, report) => report.value.map (name, ·))

def assembleArray (parts : List Report) : Json := .array (parts.map fun r => r.value.getD .null)

namespace Schema

mutual

def validateAt [Monad m] (s : Schema m) (v : Option Json) (path : Path) : m Report :=
  match s with
  | scalar kind base => base.enter (.scalar kind) v path fun value =>
    base.conclude [] value path
  | array base items => base.enter .array v path fun value => do
    let parts ← value.items.zipIdx.mapM fun (item, i) =>
      items.validateAt (some item) (path.index i)
    base.conclude parts (assembleArray parts) path
  | object base fields => base.enter .object v path fun value => do
    let parts ← validateFields fields value path
    base.conclude (parts.map Prod.snd) (assembleObject parts) path
  | custom leaf => leaf.run v path
termination_by structural s

def validateFields [Monad m] (fields : List (String × Schema m)) (value : Json) (path : Path) :
    m (List (String × Report)) :=
  match fields with
  | [] => return []
  | (name, field) :: rest => do
    let report ← field.validateAt (value.get? name) (path.field name)
    let reports ← validateFields rest value path
    return (name, report) :: reports
termination_by structural fields

end

def validate [Monad m] (s : Schema m) (v : Json) : m Report := s.validateAt (some v) .root

end Schema

end Intake
