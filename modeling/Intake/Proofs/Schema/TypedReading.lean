import Intake.Proofs.Numeric.Rounding
import Intake.Proofs.Schema.Conformance
import Intake.Proofs.Schema.Files
import Intake.Proofs.Schema.Limits

namespace Intake

namespace FileInfo

structure Within (f : FileInfo) (v : Json) : Prop where
  name : v.slot? "name" 0 = some (.string f.name)
  mimeType : v.slot? "type" 1 = some (.string f.mimeType)
  size : v.slot? "size" 2 = some (.number (.whole (.ofUInt64 f.size)))

lemma within_of_ofJson? {v : Json} {f : FileInfo} (h : ofJson? v = some f) : f.Within v := by
  cases v with
  | object entries =>
    have he := (FieldReader.read_object_eq_ok.1 (ofJson?_eq_some.1 h)).2
    obtain ⟨hn, ht, n, hs, hx⟩ := fields_ofEntries.1 he
    exact ⟨hn, ht, Whole.toUInt64?_eq_some.1 hx ▸ hs⟩
  | array items =>
    obtain ⟨_, rfl, hx⟩ := (ofJson?_array items f).1 h
    obtain rfl := Whole.toUInt64?_eq_some.1 hx
    exact ⟨rfl, rfl, rfl⟩
  | _ => exact absurd (ofJson?_eq_some.1 h) nofun

lemma ofJson?_toJson (f : FileInfo) : ofJson? f.toJson = some f := by
  have hn : (f.toJson.entries.map Prod.fst).Nodup := by
    change ["name", "type", "size"].Nodup
    decide
  exact (ofJson?_object hn f).2 ⟨rfl, rfl, _, rfl, Whole.toUInt64?_eq_some.2 rfl⟩

lemma read_eq_ok {v : Json} {f : FileInfo} (h : ofJson? v = some f) :
    (read v : Except ReadError FileInfo) = .ok f :=
  toOption_eq_some.1 h

end FileInfo

def Report.ReadsAs {α : Type} [Readable α] (P : α → Prop) (r : Report) : Prop :=
  r.isValid = true → ∃ x : α, r.readValue = .ok x ∧ P x

variable {m : Type → Type}

lemma Base.allows_mandatory {default : Option Json} {hints : FileHints}
    {registrations : List (Registration m)} {kind : Kind} {P : Json → Prop} {v : Option Json} :
    (Base.mk false false default hints registrations).Allows kind P v ↔
      ∃ w, v = some w ∧ w ≠ .null ∧ w ≠ .string "" ∧ kind.Describes w ∧ P w := by
  cases v <;> simp [Allows]

namespace Schema

variable [Monad m] [LawfulMonad m]

lemma yields_allows (kind : ScalarKind) (base : Base m) (v : Option Json) (path : Path) :
    Yields (fun r => r.value = v ∧
        (r.isValid = true → base.Allows (.scalar kind) (fun _ => True) v))
      ((scalar kind base).validateAt v path) := by
  rw [validateAt, Base.enter]
  cases ha : base.admission (.scalar kind) v with
  | exempt => exact yields_pure ⟨rfl, fun _ => Base.allows_iff.2 (Or.inl ha)⟩
  | refused why => exact yields_pure ⟨rfl, fun h => absurd h Bool.false_ne_true⟩
  | admitted w =>
    obtain ⟨rfl, -⟩ := (Base.admission_eq_admitted ..).1 ha
    simp only [Base.conclude, bind_pure_comp]
    exact yields_map (fun _ => ⟨rfl, fun _ => Base.allows_iff.2 (Or.inr ⟨w, ha, trivial⟩)⟩) _

lemma yields_readsAs {α : Type} [Readable α] {P : α → Prop} {kind : ScalarKind} {base : Base m}
    {v : Option Json} (path : Path) (h : base.Allows (.scalar kind) (fun _ => True) v →
      ∃ x : α, read (v.getD .null) = .ok x ∧ P x) :
    Yields (Report.ReadsAs P) ((scalar kind base).validateAt v path) :=
  (yields_allows kind base v path).mono fun r ⟨hv, ha⟩ hr => by
    rw [Report.readValue, hv]
    exact h (ha hr)

/-- The value of a valid report is read as data that goes with the kind, and as the input has it. -/
theorem validateAt_reads (default : Option Json) (hints : FileHints)
    (registrations : List (Registration m)) (v : Option Json) (path : Path) :
    let mandatory (kind : ScalarKind) : m Report :=
      (scalar kind ⟨false, false, default, hints, registrations⟩).validateAt v path
    (∀ kind, Yields (fun r => r.value = v) (mandatory kind)) ∧
      Yields (Report.ReadsAs fun s : String => v = some (.string s)) (mandatory .string) ∧
      Yields (Report.ReadsAs fun b : Bool => v = some (.bool b)) (mandatory .boolean) ∧
      Yields (Report.ReadsAs fun x : Binary64 => ∃ n : Number, v = some (.number n) ∧
        x = n.toBinary64 ∧ x.Nearest n.value) (mandatory .number) ∧
      Yields (Report.ReadsAs fun f : FileInfo => ∃ w, v = some w ∧ f.Within w) (mandatory .file) ∧
      (∀ optional nullable : Bool, Yields
        (Report.ReadsAs fun o : Option String => (o = none ↔ v = none ∨ v = some .null) ∧
          ∀ s, o = some s ↔ v = some (.string s))
        ((scalar .string ⟨optional, nullable, default, hints, registrations⟩).validateAt v path)) ∧
      ∀ (optional nullable : Bool) (f : FileInfo),
        let s : Schema m := scalar .file ⟨optional, nullable, default, hints, []⟩
        let r := Report.valid (some f.toJson)
        s.validateAt (some f.toJson) path = pure r ∧ FileInfo.ofJson? f.toJson = some f ∧
          r.readValue = .ok f := by
  intro mandatory
  refine ⟨?_, ?_, ?_, ?_, ?_, ?_, ?_⟩
  · exact fun kind => (yields_allows kind _ v path).mono fun _ h => h.1
  · refine yields_readsAs path fun h => ?_
    obtain ⟨_, rfl, -, -, ⟨s, rfl⟩, -⟩ := Base.allows_mandatory.1 h
    exact ⟨s, rfl, rfl⟩
  · refine yields_readsAs path fun h => ?_
    obtain ⟨_, rfl, -, -, ⟨b, rfl⟩, -⟩ := Base.allows_mandatory.1 h
    exact ⟨b, rfl, rfl⟩
  · refine yields_readsAs path fun h => ?_
    obtain ⟨_, rfl, -, -, ⟨n, rfl⟩, -⟩ := Base.allows_mandatory.1 h
    exact ⟨n.toBinary64, rfl, n, rfl, rfl, n.nearest_toBinary64⟩
  · refine yields_readsAs path fun h => ?_
    obtain ⟨w, rfl, -, -, ⟨f, hf⟩, -⟩ := Base.allows_mandatory.1 h
    exact ⟨f, FileInfo.read_eq_ok hf, w, rfl, FileInfo.within_of_ofJson? hf⟩
  · intro optional nullable
    refine yields_readsAs path fun h => ?_
    cases v with
    | none => exact ⟨none, rfl, by simp, by simp⟩
    | some w =>
      rcases h with ⟨rfl, -⟩ | ⟨-, -, ⟨s, rfl⟩, -⟩
      · exact ⟨none, rfl, by simp, by simp⟩
      · exact ⟨some s, rfl, by simp, by simp⟩
  · intro optional nullable f s r
    have hf := f.ofJson?_toJson
    refine ⟨?_, hf, FileInfo.read_eq_ok hf⟩
    have hd : (Kind.scalar .file).Describes f.toJson := ⟨f, hf⟩
    rw [validateAt, Base.enter, admission_described hd rfl]
    exact Base.conclude_nil rfl

theorem validateAt_reads_profile :
    let seen : Registration Id := ⟨"seen", .custom fun _ path =>
      .succeed ⟨path, "seen", "Seen.", none⟩, none, none⟩
    let checked (kind : ScalarKind) (c : Constraint) (v : Json) : Report :=
      let s := scalar kind ⟨false, false, none, .empty, [seen, ⟨c.name, .limit c, none, none⟩]⟩
      s.validateAt (some v) .root
    let thirtySix : Binary64 := ⟨false, 0x4042000000000000, by decide⟩
    let portrait := Json.object [("size", .number (.whole (.ofUInt64 1500))),
      ("type", .string "image/png"), ("lastModified", .null), ("name", .string "ada.png")]
    let name := checked .string .notEmpty (.string "Ada")
    let age := checked .number .integer (.number (.whole (.ofUInt64 36)))
    let picture := checked .file (.maximumSize 2048) portrait
    let title : Report := (scalar .string ⟨true, false, none, .empty, [seen]⟩).validateAt none .root
    LawfulMonad Id ∧ (name.isValid = true ∧ name.readValue = .ok "Ada") ∧
      (age.isValid = true ∧ age.readValue = .ok thirtySix ∧ thirtySix.value = 36) ∧
      (picture.isValid = true ∧ picture.value = some portrait ∧
        ∃ f : FileInfo, picture.readValue = .ok f ∧ f.Within portrait) ∧
      title.isValid = true ∧ title.readValue = .ok (none : Option String) := by
  intro seen checked thirtySix portrait name age picture title
  have hn : name.isValid = true := by decide
  have ha : age.isValid = true := by decide +kernel
  have hp : picture.isValid = true := by decide
  have ht : title.isValid = true := by decide
  obtain ⟨-, hs, -⟩ := validateAt_reads none .empty
    [seen, ⟨"notEmpty", .limit .notEmpty, none, none⟩] (some (.string "Ada")) .root
  obtain ⟨-, -, -, hd, -⟩ := validateAt_reads none .empty
    [seen, ⟨"integer", .limit .integer, none, none⟩] (some (.number (.whole (.ofUInt64 36)))) .root
  obtain ⟨hv, -, -, -, hf, -⟩ := validateAt_reads none .empty
    [seen, ⟨"maximumSize", .limit (.maximumSize 2048), none, none⟩] (some portrait) .root
  obtain ⟨-, -, -, -, -, ho, -⟩ := validateAt_reads none .empty [seen] none .root
  refine ⟨inferInstance, ⟨hn, ?_⟩, ⟨ha, ?_⟩, ⟨hp, (hv .file).run, ?_⟩, ht, ?_⟩
  · obtain ⟨s, hr, h⟩ := hs.run hn
    cases h
    exact hr
  · obtain ⟨x, hr, n, h, rfl, -⟩ := hd.run ha
    cases h
    have hx : (Whole.ofUInt64 36).toBinary64 = thirtySix := by decide +kernel
    rw [← hx]
    refine ⟨hr, (Whole.value_toBinary64 _ (by decide)).trans ?_⟩
    change ((36 : ℤ) : ℚ) = 36
    norm_num
  · obtain ⟨f, hr, w, h, hw⟩ := hf.run hp
    cases h
    exact ⟨f, hr, hw⟩
  · obtain ⟨o, hr, h, -⟩ := (ho true false).run ht
    obtain rfl := h.2 (Or.inl rfl)
    exact hr

end Schema

end Intake
