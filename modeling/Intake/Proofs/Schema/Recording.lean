import Intake.Proofs.Report.Recording
import Intake.Proofs.Schema.Branches

namespace Intake

def Registration.record (rs : List (Registration Id)) (w : Json) (path : Path) (R : Recording) :
    Recording :=
  rs.foldl (fun R r => (R.extendErrors (Id.run (r.run w path)).errors).extendSuccesses
    (Id.run (r.run w path)).successes) R

namespace Base

def record (b : Base Id) (kind : Kind) (v : Option Json) (path : Path)
    (inspect : Json → Recording) : Recording :=
  match b.admission kind v with
  | .exempt => .valid v
  | .refused why => .invalid v (why.finding path)
  | .admitted w => inspect w

def recordWhole (b : Base Id) (parts : List Recording) (w : Json) (path : Path) : Recording :=
  (Registration.record b.registrations w path (parts.foldl .absorb (.valid none))).setValue (some w)

end Base

namespace Schema

mutual

def recording (s : Schema Id) (leaf : Leaf Id → Option Json → Path → Recording)
    (v : Option Json) (path : Path) : Recording :=
  match s with
  | scalar kind base => base.record (.scalar kind) v path fun w => base.recordWhole [] w path
  | array base items => base.record .array v path fun w =>
    let parts := w.items.zipIdx.map fun x => items.recording leaf (some x.1) (path.index x.2)
    base.recordWhole parts (assembleArray (parts.map Recording.report)) path
  | object base fields => base.record .object v path fun w =>
    let parts := recordFields fields leaf w path
    base.recordWhole (parts.map Prod.snd)
      (assembleObject (parts.map fun x => (x.1, x.2.report))) path
  | custom l => leaf l v path
termination_by structural s

def recordFields (fields : List (String × Schema Id))
    (leaf : Leaf Id → Option Json → Path → Recording) (w : Json) (path : Path) :
    List (String × Recording) :=
  match fields with
  | [] => []
  | (name, field) :: rest =>
    (name, field.recording leaf (w.get? name) (path.field name)) :: recordFields rest leaf w path
termination_by structural fields

end

lemma recordFields_eq (fields : List (String × Schema Id))
    (leaf : Leaf Id → Option Json → Path → Recording) (w : Json) (path : Path) :
    recordFields fields leaf w path =
      fields.map fun x => (x.1, x.2.recording leaf (w.get? x.1) (path.field x.1)) := by
  induction fields with
  | nil => rfl
  | cons x rest ih => rw [recordFields, ih, List.map_cons]

end Schema

lemma Report.extend_extend (r : Report) (a b : Outcome) :
    (r.extend a).extend b = r.extend (a ++ b) := by
  ext1
  · simp only [toOutcome_extend, Outcome.append_assoc]
  · simp only [value_extend]

lemma Report.extend_pass (r : Report) : r.extend .pass = r := by
  ext1
  · rw [toOutcome_extend, Outcome.append_pass]
  · rw [value_extend]

lemma report_record (rs : List (Registration Id)) (w : Json) (path : Path) (R : Recording) :
    (Registration.record rs w path R).report =
      R.report.extend (Id.run (Registration.runAll rs w path)) := by
  induction rs generalizing R with
  | nil => exact R.report.extend_pass.symm
  | cons r rest ih =>
    refine (ih _).trans ?_
    change (R.report.extend (Id.run (r.run w path))).extend _ = _
    rw [Report.extend_extend]
    rfl

lemma report_foldl_absorb (parts : List Recording) (R : Recording) :
    (parts.foldl .absorb R).report = (parts.map Recording.report).foldl
      (fun report part => (Report.absorb report part).2) R.report := by
  induction parts generalizing R with
  | nil => rfl
  | cons part rest ih => exact ih (R.absorb part)

lemma report_recordWhole (b : Base Id) (parts : List Recording) (w : Json) (path : Path) :
    (b.recordWhole parts w path).report =
      Id.run (b.conclude (parts.map Recording.report) w path) := by
  change (Registration.record _ _ _ _).report.setValue _ = _
  rw [report_record, report_foldl_absorb]
  rfl

lemma report_base_record (b : Base Id) (kind : Kind) (v : Option Json) (path : Path)
    {inspect : Json → Recording} {inspect' : Json → Id Report}
    (h : ∀ w, (inspect w).report = inspect' w) :
    (b.record kind v path inspect).report = Id.run (b.enter kind v path inspect') := by
  rw [Base.record, Base.enter]
  cases b.admission kind v with
  | exempt => rfl
  | refused why => rfl
  | admitted w => exact h w

namespace Schema

theorem report_recording {leaf : Leaf Id → Option Json → Path → Recording}
    (hl : ∀ l v path, (leaf l v path).report = l.run v path) (s : Schema Id) (v : Option Json)
    (path : Path) : (s.recording leaf v path).report = s.validateAt v path := by
  induction s generalizing v path with
  | scalar kind base =>
    exact report_base_record base _ v path fun w => report_recordWhole base [] w path
  | custom l => exact hl l v path
  | array base items ih =>
    apply report_base_record
    intro w
    have hp : (w.items.zipIdx.map fun x =>
          items.recording leaf (some x.1) (path.index x.2)).map Recording.report =
        Id.run (w.items.zipIdx.mapM fun x => items.validateAt (some x.1) (path.index x.2)) := by
      rw [List.idRun_mapM, List.map_map]
      exact List.map_congr_left fun x _ => ih (some x.1) (path.index x.2)
    refine (report_recordWhole _ _ _ _).trans ?_
    rw [hp]
    rfl
  | object base fields ih =>
    apply report_base_record
    intro w
    have hp : (recordFields fields leaf w path).map (fun x => (x.1, x.2.report)) =
        Id.run (validateFields fields w path) := by
      rw [validateFields_eq, List.idRun_mapM, recordFields_eq, List.map_map]
      exact List.map_congr_left fun x hx =>
        congrArg (x.1, ·) (ih x hx (w.get? x.1) (path.field x.1))
    have hr : ((recordFields fields leaf w path).map Prod.snd).map Recording.report =
        (Id.run (validateFields fields w path)).map Prod.snd := by
      rw [← hp, List.map_map, List.map_map]
      rfl
    refine (report_recordWhole _ _ _ _).trans ?_
    rw [hp, hr]
    rfl

end Schema

namespace Recording

structure Accounts (R : Recording) : Prop where
  mark : R.mark = R.report.isValid
  isValid : R.report.isValid = true ↔ R.report.errors = []
  errors : R.report.errors = R.events.filterMap Event.error?
  successes : R.report.successes = R.events.filterMap Event.success?
  value : (R.events.filterMap Event.value?).getLast? = some R.report.value
  absorbed : ∀ part : Recording,
    R.report.absorb part.report = (part.report.value, (R.absorb part).report) ∧
      (R.absorb part).report.value = R.report.value
  resolution : R.report.resolution =
    if R.mark then ⟨R.report.value.getD (.object []), []⟩
    else ⟨.object [], firstErrors R.report.errors⟩
  views : R.report.ViewsAgree

lemma accounts (R : Recording) : R.Accounts := by
  have ho : R.report.toOutcome = found R.events := toOutcome_report R
  constructor
  · exact mark_eq R
  · exact R.report.isValid_iff
  · exact congrArg Outcome.errors ho
  · exact congrArg Outcome.successes ho
  · exact value_report R
  · exact fun part => ⟨rfl, Report.value_extend _ _⟩
  · rw [mark_eq]
    rfl
  · exact R.report.viewsAgree

def ofReport (r : Report) : Recording :=
  ((valid r.value).extendErrors r.errors).extendSuccesses r.successes

lemma report_ofReport (r : Report) : (ofReport r).report = r := by
  change (Report.valid r.value).extend r.toOutcome = r
  ext1
  · exact Report.toOutcome_extend _ _
  · exact Report.value_extend _ _

end Recording

namespace Schema

/-- However a report comes about, it accounts for all its steps; and validation makes its reports in
such steps, with leaves of other kinds that do so too. -/
theorem recordings_account :
    (∀ R : Recording, R.Accounts) ∧
      ∀ leaf : Leaf Id → Option Json → Path → Recording,
        (∀ l v path, (leaf l v path).report = l.run v path) →
        ∀ (s : Schema Id) (v : Option Json) (path : Path),
          (s.recording leaf v path).report = s.validateAt v path :=
  ⟨Recording.accounts, fun _ hl => report_recording hl⟩

theorem recordings_account_signUp :
    let closed : Schema Id := custom
      ⟨"closed", .empty, none, fun v path => (Report.valid v).pushError ⟨path, "closed", "", none⟩⟩
    let s := signUp.field "code" closed
    let emails := Json.array [.string "ada@home.org"]
    let v := some (Json.object [("name", .string "Ada"), ("emails", emails)])
    let leaf : Leaf Id → Option Json → Path → Recording := fun l v path => .ofReport (l.run v path)
    let R := s.recording leaf v .root
    (∀ l v path, (leaf l v path).report = l.run v path) ∧ R.report = s.validateAt v .root ∧
      (s.validateAt v .root).errors = R.events.filterMap Recording.Event.error? ∧
      R.mark = false := by
  intro closed s emails v leaf R
  have hl (l : Leaf Id) (v : Option Json) (path : Path) : (leaf l v path).report = l.run v path :=
    Recording.report_ofReport _
  obtain ⟨ha, hr⟩ := recordings_account
  have hR : R.report = s.validateAt v .root := hr leaf hl s v .root
  refine ⟨hl, hR, ?_, ?_⟩
  · rw [← hR]
    exact (ha R).errors
  · rw [(ha R).mark, hR]
    decide

end Schema

end Intake
