import Intake.Proofs.Schema.Limits

namespace Intake

namespace FileInfo

def Meets (f : FileInfo) : Constraint → Prop
  | .mimeType allowed => f.mimeType ∈ allowed
  | .maximumSize bytes => f.size.toNat ≤ bytes
  | .minimumSize bytes => bytes ≤ f.size.toNat
  | _ => True

instance (f : FileInfo) (c : Constraint) : Decidable (f.Meets c) :=
  match c with
  | .mimeType allowed => inferInstanceAs (Decidable (f.mimeType ∈ allowed))
  | .maximumSize bytes => inferInstanceAs (Decidable (f.size.toNat ≤ bytes))
  | .minimumSize bytes => inferInstanceAs (Decidable (bytes ≤ f.size.toNat))
  | .minimumLength _ | .maximumLength _ | .notEmpty | .minimum _ | .maximum _ | .integer
  | .positive | .negative | .minimumItems _ | .maximumItems _ => instDecidableTrue

lemma accepts_iff_meets {f : FileInfo} {v : Json} (hf : ofJson? v = some f) {c : Constraint}
    (hc : c.kind = .scalar .file) : c.accepts v = true ↔ f.Meets c := by
  cases c with
  | mimeType allowed | maximumSize bytes | minimumSize bytes =>
    simp [Constraint.accepts, Constraint.ofFile, hf, Meets]
  | _ => cases hc

end FileInfo

variable {m : Type → Type}

namespace Step

def AllMet (steps : List (Step m)) (f : FileInfo) : Prop :=
  (∀ allowed, .limit (.mimeType allowed) ∈ steps → f.mimeType ∈ allowed) ∧
    (∀ bytes, .limit (.maximumSize bytes) ∈ steps → f.size.toNat ≤ bytes) ∧
    ∀ bytes, .limit (.minimumSize bytes) ∈ steps → bytes ≤ f.size.toNat

def SetOnce (steps : List (Step m)) : Prop :=
  (given Constraint.mimeTypes? steps).length ≤ 1 ∧
    (given Constraint.mostBytes? steps).length ≤ 1 ∧
    (given Constraint.leastBytes? steps).length ≤ 1

lemma allMet_iff {steps : List (Step m)} {f : FileInfo} :
    AllMet steps f ↔ ∀ c, .limit c ∈ steps → f.Meets c := by
  constructor
  · rintro ⟨ht, hm, hl⟩ c hc
    cases c with
    | mimeType allowed => exact ht allowed hc
    | maximumSize bytes => exact hm bytes hc
    | minimumSize bytes => exact hl bytes hc
    | _ => trivial
  · exact fun h => ⟨fun _ => h _, fun _ => h _, fun _ => h _⟩

lemma filter_accepts {steps : List (Step m)}
    (hs : ∀ step ∈ steps, step.OnlyLimits (.scalar .file)) {v : Json} {f : FileInfo}
    (hf : FileInfo.ofJson? v = some f) (path : Path) :
    ((limits path steps).filter fun x => !x.1.accepts v) =
      (limits path steps).filter fun x => ¬ f.Meets x.1 := by
  apply List.filter_congr
  intro x hx
  have hm : x.1 ∈ steps.filterMap limit? := map_fst_limits path steps ▸ List.mem_map_of_mem hx
  have hk : x.1.kind = .scalar .file := hs _ (mem_limit?.1 hm)
  rw [Bool.eq_iff_iff, Bool.not_eq_true', decide_eq_true_iff, ← Bool.not_eq_true,
    FileInfo.accepts_iff_meets hf hk]

end Step

namespace Schema

def HintsAllow (s : Schema m) (f : FileInfo) : Prop :=
  (∀ allowed, s.allowedMimeTypes? = some allowed → f.mimeType ∈ allowed) ∧
    (∀ bytes, s.maximumSize? = some bytes → f.size.toNat ≤ bytes) ∧
    ∀ bytes, s.minimumSize? = some bytes → bytes ≤ f.size.toNat

section Hints

variable (steps : List (Step m))

lemma hints_applyAll :
    (file.applyAll steps).base.hints = .ofLimits (steps.filterMap Step.limit?) :=
  congrArg Base.hints ((Fresh.scalar .file).base_applyAll steps)

lemma allowedMimeTypes?_applyAll :
    (file.applyAll steps).allowedMimeTypes? = (Step.given Constraint.mimeTypes? steps).getLast? :=
  congrArg FileHints.allowedMimeTypes (hints_applyAll steps)

lemma maximumSize?_applyAll :
    (file.applyAll steps).maximumSize? = (Step.given Constraint.mostBytes? steps).getLast? :=
  congrArg FileHints.maximumSize (hints_applyAll steps)

lemma minimumSize?_applyAll :
    (file.applyAll steps).minimumSize? = (Step.given Constraint.leastBytes? steps).getLast? :=
  congrArg FileHints.minimumSize (hints_applyAll steps)

variable {steps} {f : FileInfo}

lemma hintsAllow_of_allMet (h : Step.AllMet steps f) : (file.applyAll steps).HintsAllow f := by
  obtain ⟨ht, hm, hl⟩ := h
  simp only [HintsAllow, allowedMimeTypes?_applyAll, maximumSize?_applyAll, minimumSize?_applyAll]
  refine ⟨fun x hx => ht x ?_, fun x hx => hm x ?_, fun x hx => hl x ?_⟩ <;>
    simpa [Step.mem_given] using List.mem_of_getLast? hx

lemma hintsAllow_iff_allMet (h : Step.SetOnce steps) :
    (file.applyAll steps).HintsAllow f ↔ Step.AllMet steps f := by
  obtain ⟨ht, hm, hl⟩ := h
  simp only [HintsAllow, allowedMimeTypes?_applyAll, maximumSize?_applyAll, minimumSize?_applyAll,
    getLast?_eq_some_iff_mem ht, getLast?_eq_some_iff_mem hm, getLast?_eq_some_iff_mem hl]
  simp [Step.AllMet, Step.mem_given]

end Hints

/-- A file passes if it keeps within every limit that is ever set, while the schema shows of each
sort the limit that was set last. -/
theorem validateAt_fileLimits [Monad m] [LawfulMonad m] {steps : List (Step m)}
    (hs : ∀ step ∈ steps, step.OnlyLimits (.scalar .file)) {v : Json} {f : FileInfo}
    (hf : FileInfo.ofJson? v = some f) (path : Path) :
    let s : Schema m := file.applyAll steps
    s.allowedMimeTypes? = (Step.given Constraint.mimeTypes? steps).getLast? ∧
      s.maximumSize? = (Step.given Constraint.mostBytes? steps).getLast? ∧
      s.minimumSize? = (Step.given Constraint.leastBytes? steps).getLast? ∧
      (Step.limits path steps).map Prod.fst = steps.filterMap Step.limit? ∧
      ∃ r : Report, s.validateAt (some v) path = pure r ∧ r.value = some v ∧
        r.errors = ((Step.limits path steps).filter fun x => ¬ f.Meets x.1).map Prod.snd ∧
        (r.isValid = true ↔ Step.AllMet steps f) ∧
        (r.isValid = true → s.HintsAllow f) ∧
        (Step.SetOnce steps → (r.isValid = true ↔ s.HintsAllow f)) := by
  intro s
  have hd : (Kind.scalar .file).Describes v := ⟨f, hf⟩
  have he : v.isEmptyText = false := by
    rw [← Bool.not_eq_true, Json.isEmptyText_iff]
    rintro rfl
    cases hf
  have hr := validateAt_limits hs hd he path
  rw [Step.filter_accepts hs hf] at hr
  refine ⟨allowedMimeTypes?_applyAll steps, maximumSize?_applyAll steps,
    minimumSize?_applyAll steps, Step.map_fst_limits path steps, _, hr, rfl, rfl, ?_⟩
  rw [Report.isValid_iff, Report.toOutcome_ofOutcome, Step.broken_eq_nil, ← Step.allMet_iff]
  exact ⟨Iff.rfl, hintsAllow_of_allMet, fun h => (hintsAllow_iff_allMet h).symm⟩

theorem validateAt_fileLimits_portrait :
    let picture : Step Id := .limit (.mimeType ["image/png", "image/jpeg"])
    let small : Step Id := .limit (.maximumSize 1024)
    let large : Step Id := .limit (.minimumSize 2048)
    let steps := [.optional, small, .message "Too much.", large, .message "Too little.",
      .limit (.maximumSize 4096), picture]
    let once := [picture, .message "No picture.", small]
    let f : FileInfo := ⟨"ada.png", "image/png", 1500⟩
    let v := Json.object [("size", .number (.whole (.ofUInt64 1500))),
      ("type", .string "image/png"), ("lastModified", .null), ("name", .string "ada.png")]
    LawfulMonad Id ∧ (∀ step ∈ steps, step.OnlyLimits (.scalar .file)) ∧
      (∀ step ∈ once, step.OnlyLimits (.scalar .file)) ∧ FileInfo.ofJson? v = some f ∧
      (file.applyAll steps).maximumSize? = some 4096 ∧
      (∃ r : Report, (file.applyAll steps).validateAt (some v) .root = r ∧
        r.errors = [⟨.root, "fileTooLarge", "Too much.", none⟩,
          ⟨.root, "fileTooSmall", "Too little.", none⟩]) ∧
      Step.SetOnce once ∧ ¬ (file.applyAll once).HintsAllow f ∧
      ∃ r : Report, (file.applyAll once).validateAt (some v) .root = r ∧ r.isValid = false := by
  intro picture small large steps once f v
  have hs : ∀ step ∈ steps, step.OnlyLimits (.scalar .file) := by decide
  have ho : ∀ step ∈ once, step.OnlyLimits (.scalar .file) := by decide
  have hf : FileInfo.ofJson? v = some f := rfl
  obtain ⟨-, hm, -, -, r, hr, -, he, -⟩ := validateAt_fileLimits hs hf .root
  obtain ⟨-, -, -, -, r', hr', -, -, ha, -, hi⟩ := validateAt_fileLimits ho hf .root
  have h1 : Step.SetOnce once := ⟨by decide, by decide, by decide⟩
  have hn : ¬ Step.AllMet once f := fun h => absurd (h.2.1 1024 (by simp [once, small])) (by decide)
  refine ⟨inferInstance, hs, ho, hf, hm.trans rfl, ⟨r, hr, he.trans rfl⟩, h1, ?_, r', hr', ?_⟩
  · exact fun h => hn (ha.1 ((hi h1).2 h))
  · exact Bool.eq_false_iff.2 fun h => hn (ha.1 h)

end Schema

end Intake
