import Intake.Proofs.Schema.Branches

/-! Validation written down as it goes, with what is found as it was put at first. -/

namespace Intake

variable {m : Type → Type}

structure Emission (m : Type → Type) where
  source : Option (Registration m)
  outcome : Outcome

namespace Emission

def message? (e : Emission m) : Option String := e.source.bind (·.message)

def rule? (e : Emission m) : Option RuleReference := e.source.bind (·.rule)

def shown (e : Emission m) : Outcome where
  errors := e.outcome.errors.map fun f =>
    ⟨f.path, f.identifier, e.message?.getD f.message, f.rule <|> e.rule?⟩
  successes := e.outcome.successes.map fun f =>
    ⟨f.path, f.identifier, f.message, f.rule <|> e.rule?⟩

lemma shown_none (o : Outcome) : shown (m := m) ⟨none, o⟩ = o := by
  have hf (f : Finding) : (⟨f.path, f.identifier, f.message, f.rule <|> none⟩ : Finding) = f := by
    obtain ⟨path, identifier, message, rule⟩ := f
    cases rule <;> rfl
  simp only [shown, message?, rule?, Option.bind_none, Option.getD_none, hf, List.map_id']

end Emission

structure Transcript (m : Type → Type) where
  emissions : List (Emission m)
  value : Option Json

namespace Transcript

def report (t : Transcript m) : Report :=
  .ofOutcome (.join (t.emissions.map Emission.shown)) t.value

lemma report_single (o : Outcome) (v : Option Json) :
    report (m := m) ⟨[⟨none, o⟩], v⟩ = .ofOutcome o v := by
  rw [report, List.map_singleton, Emission.shown_none, Outcome.join_cons, Outcome.join_nil,
    Outcome.append_pass]

end Transcript

namespace Base

def transcribe [Monad m] (b : Base m) (kind : Kind) (v : Option Json) (path : Path)
    (inspect : Json → m (Transcript m)) : m (Transcript m) :=
  match b.admission kind v with
  | .exempt => return ⟨[], v⟩
  | .refused why => return ⟨[⟨none, .fail (why.finding path)⟩], v⟩
  | .admitted w => inspect w

def transcribeWhole [Monad m] (b : Base m) (parts : List (Transcript m)) (w : Json) (path : Path) :
    m (Transcript m) := do
  let own ← b.registrations.mapM fun r => Emission.mk (some r) <$> r.check.run w path
  return ⟨parts.flatMap Transcript.emissions ++ own, some w⟩

end Base

namespace Schema

mutual

def transcribe [Monad m] (s : Schema m) (v : Option Json) (path : Path) : m (Transcript m) :=
  match s with
  | scalar kind base => base.transcribe (.scalar kind) v path fun w =>
    base.transcribeWhole [] w path
  | array base items => base.transcribe .array v path fun w => do
    let parts ← w.items.zipIdx.mapM fun (item, i) =>
      items.transcribe (some item) (path.index i)
    base.transcribeWhole parts (assembleArray (parts.map Transcript.report)) path
  | object base fields => base.transcribe .object v path fun w => do
    let parts ← transcribeFields fields w path
    base.transcribeWhole (parts.map Prod.snd)
      (assembleObject (parts.map fun (name, part) => (name, part.report))) path
  | custom leaf => do
    let r ← leaf.run v path
    return ⟨[⟨none, r.toOutcome⟩], r.value⟩
termination_by structural s

def transcribeFields [Monad m] (fields : List (String × Schema m)) (w : Json) (path : Path) :
    m (List (String × Transcript m)) :=
  match fields with
  | [] => return []
  | (name, field) :: rest => do
    let part ← field.transcribe (w.get? name) (path.field name)
    let parts ← transcribeFields rest w path
    return (name, part) :: parts
termination_by structural fields

end

end Schema

variable [Monad m] [LawfulMonad m]

namespace Base

lemma enter_eq_report (b : Base m) (kind : Kind) (v : Option Json) (path : Path)
    {inspect : Json → m Report} {inspect' : Json → m (Transcript m)}
    (h : ∀ w, inspect w = Transcript.report <$> inspect' w) :
    b.enter kind v path inspect = Transcript.report <$> b.transcribe kind v path inspect' := by
  rw [enter, transcribe]
  cases b.admission kind v with
  | exempt =>
    rw [map_pure]
    rfl
  | refused why =>
    rw [map_pure, Transcript.report_single]
    rfl
  | admitted w => exact h w

lemma conclude_eq_report (b : Base m) (parts : List (Transcript m)) (w : Json) (path : Path) :
    b.conclude (parts.map Transcript.report) w path =
      Transcript.report <$> b.transcribeWhole parts w path := by
  have ho : (b.registrations.mapM fun r => r.present <$> r.check.run w path) =
      List.map Emission.shown <$>
        b.registrations.mapM fun r => Emission.mk (some r) <$> r.check.run w path := by
    rw [← mapM_functor_map]
    refine mapM_congr fun r _ => ?_
    rw [Functor.map_map]
    rfl
  have hp : Outcome.join ((parts.map Transcript.report).map Report.toOutcome) =
      .join ((parts.flatMap Transcript.emissions).map Emission.shown) := by
    rw [List.map_flatMap, List.flatMap_def, Outcome.join_flatten, List.map_map, List.map_map]
    rfl
  simp only [conclude_eq, conclusion, transcribeWhole, ho, hp, Functor.map_map, bind_pure_comp,
    Transcript.report, List.map_append, Outcome.join_append]

end Base

namespace Schema

lemma transcribeFields_eq (fields : List (String × Schema m)) (w : Json) (path : Path) :
    transcribeFields fields w path =
      fields.mapM fun x => (x.1, ·) <$> x.2.transcribe (w.get? x.1) (path.field x.1) := by
  induction fields with
  | nil => simp [transcribeFields]
  | cons x rest ih => simp [transcribeFields, ih]

theorem validateAt_eq_report (s : Schema m) (v : Option Json) (path : Path) :
    s.validateAt v path = Transcript.report <$> s.transcribe v path := by
  induction s generalizing v path with
  | scalar kind base =>
    rw [validateAt, transcribe]
    exact base.enter_eq_report _ v path fun w => base.conclude_eq_report [] w path
  | custom leaf =>
    simp only [validateAt, transcribe, bind_pure_comp, Functor.map_map, Transcript.report_single,
      Report.ofOutcome_toOutcome, id_map']
  | array base items ih =>
    rw [validateAt, transcribe]
    refine base.enter_eq_report _ v path fun w => ?_
    simp only [ih, mapM_functor_map, bind_map_left, map_bind, Base.conclude_eq_report]
  | object base fields ih =>
    rw [validateAt, transcribe]
    refine base.enter_eq_report _ v path fun w => ?_
    have hf : validateFields fields w path =
        List.map (fun x => (x.1, x.2.report)) <$> transcribeFields fields w path := by
      rw [validateFields_eq, transcribeFields_eq, ← mapM_functor_map]
      refine mapM_congr fun x hx => ?_
      rw [ih x hx, Functor.map_map, Functor.map_map]
    have hs (parts : List (String × Transcript m)) :
        (parts.map fun x => (x.1, x.2.report)).map Prod.snd =
          (parts.map Prod.snd).map Transcript.report := by
      rw [List.map_map, List.map_map]
      rfl
    simp only [hf, hs, bind_map_left, map_bind, Base.conclude_eq_report]

end Schema

end Intake
