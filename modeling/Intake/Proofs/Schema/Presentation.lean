import Intake.Proofs.Schema.Transcripts

namespace Intake

variable {m : Type → Type}

lemma map_modifyLast {α β : Type} {f : α → α} {g : α → β} (h : ∀ x, g (f x) = g x) (xs : List α) :
    (modifyLast f xs).map g = xs.map g := by
  induction xs with
  | nil => rfl
  | cons x rest ih =>
    cases rest with
    | nil => exact congrArg (· :: []) (h x)
    | cons y rest => exact congrArg (g x :: ·) ih

def Registration.plain (r : Registration m) : Registration m := ⟨r.identifier, r.check, none, none⟩

namespace Base

def plain (b : Base m) : Base m :=
  { b with registrations := b.registrations.map Registration.plain }

lemma plain_register (b : Base m) (identifier : String) (check : Check m) :
    (b.register identifier check).plain = b.plain.register identifier check :=
  congrArg (Base.mk b.optional b.nullable b.default b.hints) List.map_append

lemma plain_limit (b : Base m) (constraint : Constraint) :
    (b.limit constraint).plain = b.plain.limit constraint :=
  Base.plain_register _ _ _

lemma plain_modifyLast (b : Base m) {f : Registration m → Registration m}
    (h : ∀ r, (f r).plain = r.plain) : (b.modifyLast f).plain = b.plain :=
  congrArg (Base.mk b.optional b.nullable b.default b.hints) (map_modifyLast h b.registrations)

end Base

def Step.presents : Step m → Bool
  | .message _ | .rule _ => true
  | _ => false

namespace Schema

/-- The two are built by the same calls, but that messages and rules may be set in one of them and
not, or otherwise, in the other. -/
inductive Rephrases : Schema m → Schema m → Prop
  | same (s) : Rephrases s s
  | array {base items items'} : Rephrases items items' →
      Rephrases (array base items) (array base items')
  | call {s s'} (step : Step m) : Rephrases s s' → Rephrases (s.apply step) (s'.apply step)
  | field {s s' t t'} (name : String) : Rephrases s s' → Rephrases t t' →
      Rephrases (s.field name t) (s'.field name t')
  | left {s s'} (step : Step m) : step.presents = true → Rephrases s s' →
      Rephrases (s.apply step) s'
  | right {s s'} (step : Step m) : step.presents = true → Rephrases s s' →
      Rephrases s (s'.apply step)

lemma Rephrases.applyAll {s s' : Schema m} (h : s.Rephrases s') {steps steps' : List (Step m)}
    (hs : steps.filter (!·.presents) = steps'.filter (!·.presents)) :
    (s.applyAll steps).Rephrases (s'.applyAll steps') := by
  induction steps generalizing s s' steps' with
  | nil =>
    induction steps' generalizing s' with
    | nil => exact h
    | cons step rest ih =>
      obtain ⟨hp, hr⟩ := List.forall_mem_cons.1 (List.filter_eq_nil_iff.1 hs.symm)
      exact ih (h.right step (by simpa using hp)) (List.filter_eq_nil_iff.2 hr).symm
  | cons step rest ih =>
    by_cases hp : step.presents = true
    · exact ih (h.left step hp) (by simpa [hp] using hs)
    · have hc := hs
      rw [List.filter_cons_of_pos (by simpa using hp)] at hc
      induction steps' generalizing s' with
      | nil => cases hc
      | cons step' rest' ih' =>
        by_cases hp' : step'.presents = true
        · exact ih' (h.right step' hp') (by simpa [hp'] using hs) (by simpa [hp'] using hc)
        · rw [List.filter_cons_of_pos (by simpa using hp')] at hc
          obtain ⟨rfl, hr⟩ := List.cons.inj hc
          exact ih (h.call step) hr

mutual

def plain : Schema m → Schema m
  | scalar kind base => scalar kind base.plain
  | array base items => array base.plain items.plain
  | object base fields => object base.plain (plainFields fields)
  | custom leaf => custom { leaf with base := leaf.base.plain }

def plainFields : List (String × Schema m) → List (String × Schema m)
  | [] => []
  | (name, field) :: rest => (name, field.plain) :: plainFields rest

end

lemma plainFields_eq (fields : List (String × Schema m)) :
    plainFields fields = fields.map fun x => (x.1, x.2.plain) := by
  induction fields with
  | nil => rfl
  | cons x rest ih => rw [plainFields, ih, List.map_cons]

lemma plain_modifyBase {f g : Base m → Base m} (h : ∀ b, (f b).plain = g b.plain)
    (s : Schema m) : (s.modifyBase f).plain = s.plain.modifyBase g := by
  cases s <;> simp only [modifyBase, plain, h]

lemma plain_apply_of_presents {step : Step m} (h : step.presents = true) (s : Schema m) :
    (s.apply step).plain = s.plain := by
  have hi (t : Schema m) : t.modifyBase id = t := by cases t <;> rfl
  cases step with
  | message text =>
    have hb (b : Base m) : (b.setMessage text).plain = b.plain :=
      b.plain_modifyLast fun _ => rfl
    exact (plain_modifyBase hb s).trans (hi s.plain)
  | rule reference =>
    have hb (b : Base m) : (b.setRule reference).plain = b.plain :=
      b.plain_modifyLast fun _ => rfl
    exact (plain_modifyBase hb s).trans (hi s.plain)
  | _ => cases h

lemma plain_field (s : Schema m) (name : String) (t : Schema m) :
    (s.field name t).plain = s.plain.field name t.plain := by
  cases s with
  | object base fields => simp only [field, plain, plainFields_eq, map_assign]
  | _ => rfl

lemma plain_apply_congr {s s' : Schema m} (h : s.plain = s'.plain) (step : Step m) :
    (s.apply step).plain = (s'.apply step).plain := by
  have hm {f g : Base m → Base m} (hf : ∀ b, (f b).plain = g b.plain) :
      (s.modifyBase f).plain = (s'.modifyBase f).plain := by
    rw [plain_modifyBase hf, plain_modifyBase hf, h]
  have hr (identifier : String) (check : Check m) :
      (s.register identifier check).plain = (s'.register identifier check).plain :=
    hm (g := (·.register identifier check)) fun b => b.plain_register identifier check
  cases step with
  | optional => exact hm (g := fun b => { b with optional := true }) fun _ => rfl
  | nullable => exact hm (g := fun b => { b with nullable := true }) fun _ => rfl
  | default value => exact hm (g := fun b => { b with default := some value }) fun _ => rfl
  | message text => rw [plain_apply_of_presents rfl, plain_apply_of_presents rfl, h]
  | rule reference => rw [plain_apply_of_presents rfl, plain_apply_of_presents rfl, h]
  | limit constraint => exact hm (g := (·.limit constraint)) fun b => b.plain_limit constraint
  | emailAddress => exact hr _ _
  | remoteCheck ask => exact hr _ _
  | custom identifier run => exact hr _ _
  | field name t => exact (plain_field s name t).trans (h ▸ (plain_field s' name t).symm)

theorem Rephrases.plain_eq {s s' : Schema m} (h : s.Rephrases s') : s.plain = s'.plain := by
  induction h with
  | same s => rfl
  | array _ ih => rw [plain, plain, ih]
  | call step _ ih => exact plain_apply_congr ih step
  | field name _ _ ihs iht => rw [plain_field, plain_field, ihs, iht]
  | left step hp _ ih => rw [plain_apply_of_presents hp, ih]
  | right step hp _ ih => rw [plain_apply_of_presents hp, ih]

end Schema

def Emission.plain (e : Emission m) : Emission m := ⟨e.source.map Registration.plain, e.outcome⟩

def Transcript.plain (t : Transcript m) : Transcript m :=
  ⟨t.emissions.map Emission.plain, t.value⟩

structure Gist where
  isValid : Bool
  value : Option Json
  errors : List (Path × String)
  successes : List (Path × String × String)

def Report.gist (r : Report) : Gist where
  isValid := r.isValid
  value := r.value
  errors := r.errors.map fun f => (f.path, f.identifier)
  successes := r.successes.map fun f => (f.path, f.identifier, f.message)

namespace Transcript

lemma gist_report (t : Transcript m) :
    t.report.gist =
      (Report.ofOutcome (.join (t.emissions.map Emission.outcome)) t.value).gist := by
  have he : t.report.errors.map (fun f => (f.path, f.identifier)) =
      (t.emissions.flatMap (·.outcome.errors)).map fun f => (f.path, f.identifier) := by
    simp only [report, Report.toOutcome_ofOutcome, Outcome.errors_join, List.flatMap_map,
      List.map_flatMap, Emission.shown, List.map_map, Function.comp_def]
  have hs : t.report.successes.map (fun f => (f.path, f.identifier, f.message)) =
      (t.emissions.flatMap (·.outcome.successes)).map fun f =>
        (f.path, f.identifier, f.message) := by
    simp only [report, Report.toOutcome_ofOutcome, Outcome.successes_join, List.flatMap_map,
      List.map_flatMap, Emission.shown, List.map_map, Function.comp_def]
  have hv : t.report.isValid = (t.emissions.flatMap (·.outcome.errors)).isEmpty := by
    have h := congrArg List.isEmpty he
    rwa [List.isEmpty_map, List.isEmpty_map, ← Report.isValid_eq] at h
  rw [Report.gist, he, hs, hv, Report.gist, Report.isValid_eq, Report.toOutcome_ofOutcome,
    Outcome.errors_join, Outcome.successes_join, List.flatMap_map, List.flatMap_map]
  rfl

lemma gist_report_plain (t : Transcript m) : t.plain.report.gist = t.report.gist := by
  have ho : t.plain.emissions.map Emission.outcome = t.emissions.map Emission.outcome :=
    List.map_map
  rw [gist_report, gist_report, ho]
  rfl

end Transcript

variable [Monad m] [LawfulMonad m]

namespace Base

lemma transcribe_plain (b : Base m) (kind : Kind) (v : Option Json) (path : Path)
    {inspect inspect' : Json → m (Transcript m)}
    (h : ∀ w, inspect' w = Transcript.plain <$> inspect w) :
    b.plain.transcribe kind v path inspect' =
      Transcript.plain <$> b.transcribe kind v path inspect := by
  have ha : b.plain.admission kind v = b.admission kind v := rfl
  rw [transcribe, transcribe, ha]
  cases b.admission kind v with
  | exempt =>
    rw [map_pure]
    rfl
  | refused why =>
    rw [map_pure]
    rfl
  | admitted w => exact h w

lemma transcribeWhole_plain (b : Base m) (parts : List (Transcript m)) (w : Json) (path : Path) :
    b.plain.transcribeWhole (parts.map Transcript.plain) w path =
      Transcript.plain <$> b.transcribeWhole parts w path := by
  have ho : (b.plain.registrations.mapM fun r => Emission.mk (some r) <$> r.check.run w path) =
      List.map Emission.plain <$>
        b.registrations.mapM fun r => Emission.mk (some r) <$> r.check.run w path := by
    rw [← mapM_functor_map, plain, List.mapM_map]
    refine mapM_congr fun r _ => ?_
    rw [Functor.map_map]
    rfl
  have hp : (parts.map Transcript.plain).flatMap Transcript.emissions =
      (parts.flatMap Transcript.emissions).map Emission.plain := by
    rw [List.flatMap_map, List.map_flatMap]
    rfl
  simp only [transcribeWhole, ho, hp, Functor.map_map, bind_pure_comp, Transcript.plain,
    List.map_append]

end Base

namespace Schema

omit [LawfulMonad m] in
lemma transcribe_refused {s : Schema m} {v : Option Json} {why : Refusal} (path : Path)
    (h : s.admission v = .refused why) :
    s.transcribe v path = pure ⟨[⟨none, .fail (why.finding path)⟩], v⟩ := by
  cases s with
  | custom leaf => cases h
  | _ =>
    simp only [admission] at h
    simp only [transcribe, Base.transcribe, h]

theorem transcribe_plain (s : Schema m) (v : Option Json) (path : Path) :
    s.plain.transcribe v path = Transcript.plain <$> s.transcribe v path := by
  induction s generalizing v path with
  | scalar kind base =>
    rw [plain, transcribe, transcribe]
    exact base.transcribe_plain _ v path fun w => base.transcribeWhole_plain [] w path
  | custom leaf =>
    simp only [plain, transcribe, bind_pure_comp, Functor.map_map]
    rfl
  | array base items ih =>
    have ha (parts : List (Transcript m)) :
        assembleArray ((parts.map Transcript.plain).map Transcript.report) =
          assembleArray (parts.map Transcript.report) := by
      simp only [assembleArray, List.map_map]
      rfl
    rw [plain, transcribe, transcribe]
    refine base.transcribe_plain _ v path fun w => ?_
    simp only [ih, mapM_functor_map, bind_map_left, map_bind, ha, Base.transcribeWhole_plain]
  | object base fields ih =>
    have hf (w : Json) : transcribeFields (plainFields fields) w path =
        List.map (fun x => (x.1, x.2.plain)) <$> transcribeFields fields w path := by
      rw [transcribeFields_eq, transcribeFields_eq, plainFields_eq, ← mapM_functor_map,
        List.mapM_map]
      refine mapM_congr fun x hx => ?_
      rw [Function.comp_apply, ih x hx, Functor.map_map, Functor.map_map]
    have hs (parts : List (String × Transcript m)) :
        (parts.map fun x => (x.1, x.2.plain)).map Prod.snd =
          (parts.map Prod.snd).map Transcript.plain := by
      rw [List.map_map, List.map_map]
      rfl
    have ha (parts : List (String × Transcript m)) :
        assembleObject ((parts.map fun x => (x.1, x.2.plain)).map fun x => (x.1, x.2.report)) =
          assembleObject (parts.map fun x => (x.1, x.2.report)) := by
      simp only [assembleObject, List.filterMap_map]
      rfl
    rw [plain, transcribe, transcribe]
    refine base.transcribe_plain _ v path fun w => ?_
    simp only [hf, hs, ha, bind_map_left, map_bind, Base.transcribeWhole_plain]

theorem validateAt_rephrased {s s' : Schema m} (h : s.Rephrases s') (v : Option Json)
    (path : Path) :
    Report.gist <$> s.validateAt v path = Report.gist <$> s'.validateAt v path ∧
    Transcript.plain <$> s.transcribe v path = Transcript.plain <$> s'.transcribe v path ∧
    (∀ t : Schema m, t.validateAt v path = Transcript.report <$> t.transcribe v path) ∧
    (∀ (t : Schema m) why, t.admission v = .refused why →
      t.transcribe v path = pure ⟨[⟨none, .fail (why.finding path)⟩], v⟩) ∧
    ∀ o : Outcome, Emission.shown (m := m) ⟨none, o⟩ = o := by
  have ht : Transcript.plain <$> s.transcribe v path =
      Transcript.plain <$> s'.transcribe v path := by
    rw [← transcribe_plain, ← transcribe_plain, h.plain_eq]
  have hg (t : Schema m) : Report.gist <$> t.validateAt v path =
      (fun t => t.report.gist) <$> Transcript.plain <$> t.transcribe v path := by
    rw [validateAt_eq_report, Functor.map_map, Functor.map_map]
    simp only [Transcript.gist_report_plain]
  refine ⟨?_, ht, fun t => validateAt_eq_report t v path, fun t why => transcribe_refused path,
    Emission.shown_none⟩
  rw [hg, hg, ht]

theorem validateAt_rephrased_names :
    let isEmail : RuleReference := ⟨"isEmail", none⟩
    let s : Schema Id := emptyObject.applyAll [.message "Not shown.",
      .field "name" (string.applyAll [.limit (.minimumLength 3), .message "Too short.",
        .limit .notEmpty]),
      .field "email" (string.applyAll [.emailAddress, .rule isEmail])]
    let s' : Schema Id := emptyObject.applyAll [
      .field "name" (string.applyAll [.limit (.minimumLength 3), .limit .notEmpty,
        .message "Not empty."]),
      .field "email" (string.applyAll [.emailAddress, .message "No address."])]
    let v := some (Json.object [("name", .string "Al"), ("email", .string "al@home.org")])
    LawfulMonad Id ∧ s.Rephrases s' ∧
      (s.validateAt v .root).gist = (s'.validateAt v .root).gist ∧
      (s.validateAt v .root).errors.map Finding.message = ["Too short."] ∧
      (s'.validateAt v .root).errors.map Finding.message = ["Must be at least 3 characters."] ∧
      (s.validateAt v .root).successes.map Finding.rule = [some isEmail] := by
  intro isEmail s s' v
  have h : s.Rephrases s' := by
    have hn : (emptyObject.apply (.message "Not shown.")).Rephrases (emptyObject (m := Id)) :=
      .left _ rfl (.same _)
    refine .field "email" (.field "name" hn ?_) ?_
    · exact (Rephrases.same string).applyAll rfl
    · exact (Rephrases.same string).applyAll rfl
  obtain ⟨hg, -⟩ := validateAt_rephrased (m := Id) h v .root
  exact ⟨inferInstance, h, hg, rfl, rfl, rfl⟩

end Schema

end Intake
