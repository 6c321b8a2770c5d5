import Intake.Proofs.FileInfo
import Intake.Proofs.Schema.Branches

namespace Intake

variable {m : Type → Type}

lemma Whole.toUInt64?_eq_some {n : Whole} {x : UInt64} :
    n.toUInt64? = some x ↔ n = .ofUInt64 x := by
  obtain ⟨val, lower, upper⟩ := n
  simp only [toUInt64?, ofUInt64, Whole.mk.injEq]
  constructor
  · intro h
    obtain ⟨hn, hx⟩ := Option.ite_none_right_eq_some.1 h
    obtain rfl := Option.some.inj hx
    have ht : val.toNat < 2 ^ 64 := by omega
    rw [UInt64.toNat_ofNat_of_lt' ht]
    omega
  · rintro rfl
    simp

namespace Json

def IsFileObject (v : Json) : Prop :=
  ∃ entries name type size, v = .object entries ∧
    entries.lookup "name" = some (.string name) ∧ entries.lookup "type" = some (.string type) ∧
    entries.lookup "size" = some (.number (.whole (.ofUInt64 size)))

def IsFileList (v : Json) : Prop :=
  ∃ name type size, v = .array [.string name, .string type, .number (.whole (.ofUInt64 size))]

end Json

namespace FileInfo

lemma isSome_ofJson?_iff {v : Json} (hv : v.WellFormed) :
    (ofJson? v).isSome = true ↔ v.IsFileObject ∨ v.IsFileList := by
  rw [Option.isSome_iff_exists]
  cases v with
  | object entries =>
    have hl : ¬ (Json.object entries).IsFileList := nofun
    simp only [ofJson?_object (Json.wellFormed_object.1 hv).1, Whole.toUInt64?_eq_some, hl,
      or_false]
    constructor
    · rintro ⟨f, hn, ht, _, hs, rfl⟩
      exact ⟨entries, f.name, f.mimeType, f.size, rfl, hn, ht, hs⟩
    · rintro ⟨_, name, type, size, he, hn, ht, hs⟩
      cases he
      exact ⟨⟨name, type, size⟩, hn, ht, _, hs, rfl⟩
  | array items =>
    have ho : ¬ (Json.array items).IsFileObject := nofun
    simp only [ofJson?_array, Whole.toUInt64?_eq_some, ho, false_or]
    constructor
    · rintro ⟨f, _, rfl, rfl⟩
      exact ⟨f.name, f.mimeType, f.size, rfl⟩
    · rintro ⟨name, type, size, he⟩
      cases he
      exact ⟨⟨name, type, size⟩, _, rfl, rfl⟩
  | _ =>
    refine iff_of_false ?_ ?_
    · rintro ⟨f, hf⟩
      exact absurd (ofJson?_eq_some.1 hf) nofun
    · rintro (⟨_, _, _, _, h, _⟩ | ⟨_, _, _, h⟩) <;> cases h

end FileInfo

namespace Schema

lemma admission_file (default : Option Json) (hints : FileHints) {v : Json} (hn : v ≠ .null)
    (he : v ≠ .string "") :
    (Base.mk (m := m) false false default hints []).admission (.scalar .file) (some v) =
      if (FileInfo.ofJson? v).isSome then .admitted v else .refused (.ofKind "File" v) := by
  have hn : v.isNull = false := Bool.eq_false_iff.2 fun h => hn (Json.isNull_iff.1 h)
  have he : v.isEmptyText = false := Bool.eq_false_iff.2 fun h => he (Json.isEmptyText_iff.1 h)
  simp only [Base.admission, hn, he, Bool.false_and, Bool.false_eq_true, if_false]
  rfl

/-- Without checks, a schema for files takes the objects and the lists that tell of one, and keeps
them as they are. -/
theorem validateAt_file [Monad m] [LawfulMonad m] {v : Json} (hv : v.WellFormed) (hn : v ≠ .null)
    (he : v ≠ .string "") (default : Option Json) (hints : FileHints) (path : Path) :
    ∃ r : Report,
      (scalar .file ⟨false, false, default, hints, []⟩ : Schema m).validateAt (some v) path =
        pure r ∧
      r.value = some v ∧ r.successes = [] ∧
      (r.isValid = true ↔ v.IsFileObject ∨ v.IsFileList) ∧
      (r.isValid = false → r.errors =
        [⟨path, "invalidType", "Expected File, received " ++ v.typeName, none⟩]) := by
  rw [← FileInfo.isSome_ofJson?_iff hv, validateAt, Base.enter, admission_file default hints hn he]
  by_cases hf : (FileInfo.ofJson? v).isSome = true
  · refine ⟨.valid (some v), ?_, rfl, rfl, iff_of_true rfl hf,
      fun h => absurd h.symm Bool.false_ne_true⟩
    rw [if_pos hf]
    simp only [Base.conclude, Registration.runAll, pure_bind]
    rfl
  · refine ⟨.invalid (some v) ((Refusal.ofKind "File" v).finding path), ?_, rfl, rfl,
      iff_of_false Bool.false_ne_true hf, fun _ => rfl⟩
    rw [if_neg hf]

def photo : Json :=
  .array [.string "ada.png", .string "image/png", .number (.whole (.ofUInt64 10))]

lemma wellFormed_photo : photo.WellFormed := by
  simp [photo, Json.WellFormed, Json.WellFormedItems]

theorem validateAt_file_photo :
    photo.WellFormed ∧ photo ≠ .null ∧ photo ≠ .string "" ∧
      ∃ r : Report, (file : Schema Id).validateAt (some photo) .root = r ∧ r.isValid = true := by
  have hn : photo ≠ .null := nofun
  have he : photo ≠ .string "" := nofun
  obtain ⟨r, hr, -, -, hi, -⟩ := validateAt_file (m := Id) wellFormed_photo hn he none .empty .root
  exact ⟨wellFormed_photo, hn, he, r, hr, hi.2 (Or.inr ⟨_, _, _, rfl⟩)⟩

theorem not_isValid_file_iff_isFileObject :
    ¬ ∀ v : Json, v.WellFormed → v ≠ .null → v ≠ .string "" →
      (((file : Schema Id).validateAt (some v) .root).isValid = true ↔ v.IsFileObject) := by
  intro h
  obtain ⟨_, _, _, _, ho, _⟩ := (h photo wellFormed_photo nofun nofun).1 (by decide)
  exact absurd ho nofun

end Schema

end Intake
