import Intake.FileInfo
import Intake.Proofs.Json.Sameness
import Intake.Proofs.Reading.Record

namespace Intake

namespace FileInfo

lemma heeds_fields : fields.Heeds :=
  (FieldReader.heeds_required "name").and
    ((FieldReader.heeds_required "type").and (FieldReader.heeds_required "size"))

lemma ofJson?_eq_some {v : Json} {f : FileInfo} :
    ofJson? v = some f ↔ fields.read "FileInfo" v = .ok (f.name, f.mimeType, f.size) := by
  rw [ofJson?, toOption_eq_some]
  refine map_eq_ok.trans ⟨?_, fun h => ⟨_, h, rfl⟩⟩
  rintro ⟨⟨name, mimeType, size⟩, h, rfl⟩
  exact h

lemma fields_ofEntries {entries : List (String × Json)} {f : FileInfo} :
    fields.ofEntries entries = .ok (f.name, f.mimeType, f.size) ↔
      entries.lookup "name" = some (.string f.name) ∧
      entries.lookup "type" = some (.string f.mimeType) ∧
      ∃ n, entries.lookup "size" = some (.number (.whole n)) ∧ n.toUInt64? = some f.size := by
  simp only [fields, FieldReader.and_ofEntries, FieldReader.required_ofEntries, read_string_eq_ok,
    read_uInt64_eq_ok, exists_eq_right]
  refine and_congr_right' (and_congr_right' ⟨?_, ?_⟩)
  · rintro ⟨_, hl, n, rfl, hs⟩
    exact ⟨n, hl, hs⟩
  · rintro ⟨n, hl, hs⟩
    exact ⟨_, hl, n, rfl, hs⟩

lemma ofJson?_object {entries : List (String × Json)} (hn : (entries.map Prod.fst).Nodup)
    (f : FileInfo) : ofJson? (.object entries) = some f ↔
      entries.lookup "name" = some (.string f.name) ∧
      entries.lookup "type" = some (.string f.mimeType) ∧
      ∃ n, entries.lookup "size" = some (.number (.whole n)) ∧ n.toUInt64? = some f.size := by
  rw [ofJson?_eq_some, FieldReader.read_object heeds_fields hn, fields_ofEntries]

lemma ofJson?_array (items : List Json) (f : FileInfo) : ofJson? (.array items) = some f ↔
    ∃ n, items = [.string f.name, .string f.mimeType, .number (.whole n)] ∧
      n.toUInt64? = some f.size := by
  rw [ofJson?_eq_some, FieldReader.read_array, fields]
  simp only [FieldReader.and_ofItems, FieldReader.required_ofItems, read_string_eq_ok,
    read_uInt64_eq_ok]
  constructor
  · rintro ⟨_, ⟨_, rfl, rfl⟩, _, ⟨_, rfl, rfl⟩, _, rfl, n, rfl, hs⟩
    exact ⟨n, rfl, hs⟩
  · rintro ⟨n, rfl, hs⟩
    exact ⟨_, ⟨_, rfl, rfl⟩, _, ⟨_, rfl, rfl⟩, _, rfl, n, rfl, hs⟩

lemma ofJson?_of_alike {v w : Json} (h : v.Alike w) {f : FileInfo} (hf : ofJson? v = some f) :
    ofJson? w = some f := by
  cases v with
  | object xs =>
    cases w with
    | object ys =>
      obtain ⟨hx, hy, hl⟩ := Json.alike_object.1 h
      have ht {name s : String} (hs : xs.lookup name = some (.string s)) :
          ys.lookup name = some (.string s) := by
        obtain ⟨y, hy, ha⟩ := exists_of_rel_some (hs ▸ hl name)
        rw [hy, ha.eq_string]
      obtain ⟨hname, htype, n, hsize, hn⟩ := (ofJson?_object hx f).1 hf
      obtain ⟨y, hsize, ha⟩ := exists_of_rel_some (hsize ▸ hl "size")
      obtain rfl := ha.eq_whole
      exact (ofJson?_object hy f).2 ⟨ht hname, ht htype, n, hsize, hn⟩
    | _ => exact absurd h.same Bool.false_ne_true
  | array xs =>
    cases w with
    | array ys =>
      obtain ⟨n, rfl, hn⟩ := (ofJson?_array xs f).1 hf
      have h := Json.alike_array.1 h
      simp only [List.forall₂_cons_left_iff, List.forall₂_nil_left_iff] at h
      obtain ⟨_, _, hname, ⟨_, _, htype, ⟨_, _, hsize, rfl, rfl⟩, rfl⟩, rfl⟩ := h
      exact (ofJson?_array _ f).2 ⟨n, by rw [hname.eq_string, htype.eq_string, hsize.eq_whole], hn⟩
    | _ => exact absurd h.same Bool.false_ne_true
  | _ => exact absurd (ofJson?_eq_some.1 hf) nofun

theorem ofJson?_eq_of_alike {v w : Json} (h : v.Alike w) : ofJson? v = ofJson? w :=
  Option.ext fun _ => ⟨ofJson?_of_alike h, ofJson?_of_alike h.symm⟩

end FileInfo

end Intake
