import Intake.Proofs.Metadata.Tolerance

namespace Intake

namespace Json

inductive NamesKind : Json → String → Prop
  | alone s : NamesKind (.string s) s
  | key s : NamesKind (.object [(s, .null)]) s

inductive NamesType : Json → Option FieldType → Prop
  | none : NamesType .null none
  | name s : NamesType (.string s) (some (.named s))
  | reference {entries s} : entries.lookup "type" = some (.string s) →
      NamesType (.object entries) (some (.reference s))

structure IsFieldDescription (v : Json) : Prop where
  record : v.IsRecord 2 5
  name : ∃ s, v.slot? "name" 0 = some (.string s)
  kind : ∃ x s, v.slot? "kind" 1 = some x ∧ x.NamesKind s
  required : ∀ x, v.slot? "required" 2 = some x → ∃ b, x = .bool b
  type : ∀ x, v.slot? "type" 3 = some x → ∃ t, x.NamesType t

structure IsTypeDescription (v : Json) : Prop where
  record : v.IsRecord 1 1
  fields : ∃ xs, v.slot? "fields" 0 = some (.array xs) ∧ ∀ x ∈ xs, x.IsFieldDescription

structure DescribesRule (v : Json) (r : RuleDescriptor) : Prop where
  record : v.IsRecord 1 2
  type : v.slot? "type" 0 = some (.string r.type)
  constraints : ∀ cs, r.constraints = some cs ↔ v.slot? "constraints" 1 = some (.array cs)

inductive RulesAmong : List Json → List RuleDescriptor → Prop
  | nil : RulesAmong [] []
  | rule {x r xs rs} : DescribesRule x r → RulesAmong xs rs → RulesAmong (x :: xs) (r :: rs)
  | other {x xs rs} : (∀ r, ¬ DescribesRule x r) → RulesAmong xs rs → RulesAmong (x :: xs) rs

def kinds : List (String × FieldKind) :=
  [("scalar", .scalar), ("enum", .enum), ("object", .object), ("list", .list)]

structure DescribesField (v : Json) (d : FieldDescriptor) : Prop where
  record : v.IsRecord 2 5
  name : v.slot? "name" 0 = some (.string d.name)
  kind : ∃ x s, v.slot? "kind" 1 = some x ∧ x.NamesKind s ∧ d.kind = (kinds.lookup s).getD .other
  required : (v.slot? "required" 2).getD (.bool false) = .bool d.required
  type : ((v.slot? "type" 3).getD .null).NamesType d.type
  validation : RulesAmong ((v.slot? "validation" 4).getD .null).items d.validation

structure DescribesType (v : Json) (t : InputType) : Prop where
  record : v.IsRecord 1 1
  fields : ∃ xs, v.slot? "fields" 0 = some (.array xs) ∧ List.Forall₂ DescribesField xs t.fields

end Json

lemma read_bool_eq_ok {v : Json} {b : Bool} :
    (read v : Except ReadError Bool) = .ok b ↔ v = .bool b := by
  cases v <;> simp [read]

lemma FieldKind.ofName_eq (s : String) : ofName s = (Json.kinds.lookup s).getD .other := by
  have h := lookup_map_key FieldKind.name [.scalar, .enum, .object, .list] s
  exact congrArg (·.getD .other) h.symm

lemma read_kind_eq_ok {v : Json} {k : FieldKind} : (read v : Except ReadError FieldKind) = .ok k ↔
    ∃ s, v.NamesKind s ∧ k = (Json.kinds.lookup s).getD .other := by
  simp only [← FieldKind.ofName_eq]
  constructor
  · intro h
    cases v with
    | string s => exact ⟨s, .alone s, (Except.ok.inj h).symm⟩
    | object entries =>
      obtain _ | ⟨⟨s, x⟩, _ | ⟨_, _⟩⟩ := entries
      · cases h
      · cases x with
        | null => exact ⟨s, .key s, (Except.ok.inj h).symm⟩
        | _ => cases h
      · cases h
    | _ => cases h
  · rintro ⟨s, hs, rfl⟩
    cases hs <;> rfl

lemma read_type_eq_ok {v : Json} {t : Option FieldType} :
    (read v : Except ReadError (Option FieldType)) = .ok t ↔ v.NamesType t := by
  constructor
  · intro h
    cases v with
    | null =>
      obtain rfl := Except.ok.inj h
      exact .none
    | string s =>
      obtain rfl := Except.ok.inj h
      exact .name s
    | object entries =>
      obtain ⟨t, ht, rfl⟩ := map_eq_ok.1 h
      simp only [read, Json.get?, Json.entries] at ht
      split at ht
      next s hs =>
        obtain rfl := Except.ok.inj ht
        exact .reference hs
      · cases ht
    | _ => cases h
  · intro h
    cases h with
    | none => rfl
    | name s => rfl
    | @reference entries s hs => simp [read, Json.get?, Json.entries, hs]

lemma readConstraints_eq_ok {v : Json} {c : Option (List Json)} :
    readConstraints v = .ok c ↔ ∀ cs, c = some cs ↔ v = .array cs := by
  constructor
  · intro h
    cases v <;> cases h <;> simp
  · intro h
    cases c with
    | some cs =>
      obtain rfl := (h cs).1 rfl
      rfl
    | none =>
      cases v with
      | array cs => exact absurd ((h cs).2 rfl) nofun
      | _ => rfl

namespace Json

lemma getD_null_eq_array {o : Option Json} {cs : List Json} :
    o.getD .null = .array cs ↔ o = some (.array cs) := by
  cases o <;> simp

lemma WellFormed.getD_slot? {v : Json} (hv : v.WellFormed) (name : String) (place : Nat) :
    ((v.slot? name place).getD .null).WellFormed := by
  cases h : v.slot? name place with
  | none => trivial
  | some x => exact hv.of_slot? h

lemma WellFormed.of_mem_items {v x : Json} (hv : v.WellFormed) (hx : x ∈ v.items) :
    x.WellFormed := by
  cases v with
  | array xs => exact wellFormed_array.1 hv x hx
  | _ => exact absurd hx List.not_mem_nil

end Json

namespace RuleDescriptor

lemma read_eq_ok {v : Json} {r : RuleDescriptor} :
    (read v : Except ReadError RuleDescriptor) = .ok r ↔
      fields.read "RuleDescriptor" v = .ok (r.type, r.constraints) := by
  refine map_eq_ok.trans ⟨?_, fun h => ⟨_, h, rfl⟩⟩
  rintro ⟨⟨type, constraints⟩, h, rfl⟩
  exact h

lemma read_eq_ok_iff {v : Json} (hv : v.WellFormed) {r : RuleDescriptor} :
    (read v : Except ReadError RuleDescriptor) = .ok r ↔ v.DescribesRule r := by
  have hf := (FieldReader.reads_field "type" (read : Json → Except ReadError String) none 0).and
    (FieldReader.reads_field "constraints" readConstraints (some none) 1)
  refine read_eq_ok.trans
    ((hf.read_eq_ok hv "RuleDescriptor" (r.type, r.constraints)).trans ?_)
  have hc : readConstraints .null = .ok none := rfl
  rw [FieldReader.given_required, FieldReader.given_optional hc, readConstraints_eq_ok]
  simp only [read_string_eq_ok, exists_eq_right, Json.getD_null_eq_array]
  constructor
  · rintro ⟨hr, ht, hc⟩
    exact ⟨(Json.isRecord_of_slot? ht).1 hr, ht, hc⟩
  · rintro ⟨hr, ht, hc⟩
    exact ⟨(Json.isRecord_of_slot? ht).2 hr, ht, hc⟩

lemma ofJson?_eq_some {v : Json} (hv : v.WellFormed) {r : RuleDescriptor} :
    ofJson? v = some r ↔ v.DescribesRule r :=
  toOption_eq_some.trans (read_eq_ok_iff hv)

end RuleDescriptor

namespace Json

lemma rulesAmong_iff {xs : List Json} (hx : ∀ x ∈ xs, x.WellFormed) {rs : List RuleDescriptor} :
    RulesAmong xs rs ↔ xs.filterMap RuleDescriptor.ofJson? = rs := by
  induction xs generalizing rs with
  | nil => exact ⟨fun h => by cases h; rfl, fun h => h ▸ .nil⟩
  | cons x xs ih =>
    obtain ⟨hx, hxs⟩ := List.forall_mem_cons.1 hx
    have hr {r : RuleDescriptor} : RuleDescriptor.ofJson? x = some r ↔ x.DescribesRule r :=
      RuleDescriptor.ofJson?_eq_some hx
    rw [List.filterMap_cons]
    cases hm : RuleDescriptor.ofJson? x with
    | none =>
      have hn (r : RuleDescriptor) : ¬ x.DescribesRule r := fun h => by simp [hr.2 h] at hm
      refine ⟨fun h => ?_, fun h => .other hn ((ih hxs).2 h)⟩
      cases h with
      | rule h _ => exact absurd h (hn _)
      | other _ h => exact (ih hxs).1 h
    | some r =>
      have hd : x.DescribesRule r := hr.1 hm
      refine ⟨fun h => ?_, fun h => h ▸ .rule hd ((ih hxs).2 rfl)⟩
      cases h with
      | rule h hs =>
        obtain rfl := Option.some.inj (hm.symm.trans (hr.2 h))
        exact congrArg _ ((ih hxs).1 hs)
      | other h _ => exact absurd hd (h r)

lemma exists_rulesAmong (xs : List Json) : ∃ rs, RulesAmong xs rs := by
  induction xs with
  | nil => exact ⟨[], .nil⟩
  | cons x xs ih =>
    obtain ⟨rs, hrs⟩ := ih
    by_cases hx : ∃ r, x.DescribesRule r
    · obtain ⟨r, hr⟩ := hx
      exact ⟨r :: rs, .rule hr hrs⟩
    · exact ⟨rs, .other (not_exists.1 hx) hrs⟩

end Json

lemma readRules_eq_ok {v : Json} (hv : v.WellFormed) {rs : List RuleDescriptor} :
    readRules v = .ok rs ↔ Json.RulesAmong v.items rs := by
  rw [Json.rulesAmong_iff fun _ => hv.of_mem_items, FieldDescriptor.readRules_eq,
    Except.ok.injEq]
  cases v <;> rfl

namespace FieldDescriptor

lemma read_eq_ok_iff {v : Json} (hv : v.WellFormed) {d : FieldDescriptor} :
    (read v : Except ReadError FieldDescriptor) = .ok d ↔ v.DescribesField d := by
  have hf := (FieldReader.reads_field "name" (read : Json → Except ReadError String) none 0).and <|
    (FieldReader.reads_field "kind" (read : Json → Except ReadError FieldKind) none 1).and <|
    (FieldReader.reads_field "required" (read : Json → Except ReadError Bool) (some false) 2).and <|
    (FieldReader.reads_field "type" (read : Json → Except ReadError (Option FieldType))
      (some none) 3).and <|
    FieldReader.reads_field "validation" readRules (some []) 4
  refine read_eq_ok.trans ((hf.read_eq_ok hv "FieldMetadata"
    (d.name, d.kind, d.required, d.type, d.validation)).trans ?_)
  have hq : (read (.bool false) : Except ReadError Bool) = .ok false := rfl
  have ht : (read .null : Except ReadError (Option FieldType)) = .ok none := rfl
  have hr : readRules .null = .ok [] := rfl
  rw [FieldReader.given_required, FieldReader.given_required, FieldReader.given_optional hq,
    FieldReader.given_optional ht, FieldReader.given_optional hr, read_bool_eq_ok,
    read_type_eq_ok, readRules_eq_ok (hv.getD_slot? _ _)]
  simp only [read_string_eq_ok, exists_eq_right, read_kind_eq_ok]
  constructor
  · rintro ⟨hr, hn, ⟨x, hk, s, hs, hd⟩, hq, ht, hrs⟩
    exact ⟨(Json.isRecord_of_slot? hk).1 hr, hn, ⟨x, s, hk, hs, hd⟩, hq, ht, hrs⟩
  · rintro ⟨hr, hn, ⟨x, s, hk, hs, hd⟩, hq, ht, hrs⟩
    exact ⟨(Json.isRecord_of_slot? hk).2 hr, hn, ⟨x, hk, s, hs, hd⟩, hq, ht, hrs⟩

lemma readAll_eq_ok_iff {xs : List Json} (hx : ∀ x ∈ xs, x.WellFormed)
    {ds : List FieldDescriptor} : readAll xs = .ok ds ↔ List.Forall₂ Json.DescribesField xs ds := by
  have hd (v : Json) (d : FieldDescriptor) :
      v.WellFormed ∧ read v = .ok d ↔ v.WellFormed ∧ v.DescribesField d :=
    and_congr_right fun hv => read_eq_ok_iff hv
  calc readAll xs = .ok ds
    _ ↔ (∀ x ∈ xs, x.WellFormed) ∧ List.Forall₂ (fun v d => read v = .ok d) xs ds := by
      rw [readAll_eq_ok, and_iff_right hx]
    _ ↔ (∀ x ∈ xs, x.WellFormed) ∧ List.Forall₂ Json.DescribesField xs ds := by
      simp only [← List.forall₂_and_left, hd]
    _ ↔ List.Forall₂ Json.DescribesField xs ds := and_iff_right hx

end FieldDescriptor

lemma exists_forall₂_iff {α β : Type} {R : α → β → Prop} {xs : List α} :
    (∃ ys, List.Forall₂ R xs ys) ↔ ∀ x ∈ xs, ∃ y, R x y := by
  induction xs with
  | nil => simp
  | cons x xs ih =>
    rw [List.forall_mem_cons, ← ih]
    constructor
    · rintro ⟨_, _ | ⟨hx, hxs⟩⟩
      exact ⟨⟨_, hx⟩, _, hxs⟩
    · rintro ⟨⟨y, hx⟩, ys, hxs⟩
      exact ⟨y :: ys, .cons hx hxs⟩

namespace Json

lemma exists_describesField {v : Json} : (∃ d, v.DescribesField d) ↔ v.IsFieldDescription := by
  constructor
  · rintro ⟨d, hr, hn, ⟨x, s, hx, hs, -⟩, hq, ht, -⟩
    refine ⟨hr, ⟨_, hn⟩, ⟨x, s, hx, hs⟩, fun x hx => ⟨d.required, ?_⟩, fun x hx => ⟨d.type, ?_⟩⟩
    · rwa [hx] at hq
    · rwa [hx] at ht
  · rintro ⟨hr, ⟨name, hn⟩, ⟨x, s, hx, hs⟩, hq, ht⟩
    obtain ⟨required, hq⟩ : ∃ b, (v.slot? "required" 2).getD (.bool false) = .bool b := by
      cases h : v.slot? "required" 2 with
      | none => exact ⟨false, rfl⟩
      | some x => exact hq x h
    obtain ⟨type, ht⟩ : ∃ t, ((v.slot? "type" 3).getD .null).NamesType t := by
      cases h : v.slot? "type" 3 with
      | none => exact ⟨none, .none⟩
      | some x => exact ht x h
    obtain ⟨rules, hrs⟩ := exists_rulesAmong ((v.slot? "validation" 4).getD .null).items
    exact ⟨⟨name, _, required, type, rules⟩, hr, hn, ⟨x, s, hx, hs, rfl⟩, hq, ht, hrs⟩

lemma exists_describesType {v : Json} : (∃ t, v.DescribesType t) ↔ v.IsTypeDescription := by
  constructor
  · rintro ⟨t, hr, xs, hs, hx⟩
    refine ⟨hr, xs, hs, fun x hm => exists_describesField.1 ?_⟩
    exact exists_forall₂_iff.1 ⟨_, hx⟩ x hm
  · rintro ⟨hr, xs, hs, hx⟩
    obtain ⟨ds, hd⟩ := exists_forall₂_iff.2 fun x hm => exists_describesField.2 (hx x hm)
    exact ⟨⟨ds⟩, hr, xs, hs, hd⟩

end Json

namespace InputType

lemma ofJson_eq_ok_iff {v : Json} (hv : v.WellFormed) {t : InputType} :
    ofJson v = .ok t ↔ v.DescribesType t := by
  have hf := FieldReader.reads_field "fields"
    (read : Json → Except ReadError (List FieldDescriptor)) none 0
  refine ofJson_eq_ok.trans
    ((hf.read_eq_ok hv "InputObjectTypeMetadata" t.fields).trans ?_)
  rw [FieldReader.given_required]
  constructor
  · rintro ⟨hr, x, hs, hx⟩
    cases x with
    | array xs =>
      have hw := Json.wellFormed_array.1 (hv.of_slot? hs)
      exact ⟨(Json.isRecord_of_slot? hs).1 hr, xs, hs, (FieldDescriptor.readAll_eq_ok_iff hw).1 hx⟩
    | _ => cases hx
  · rintro ⟨hr, xs, hs, hx⟩
    have hw := Json.wellFormed_array.1 (hv.of_slot? hs)
    exact ⟨(Json.isRecord_of_slot? hs).2 hr, _, hs, (FieldDescriptor.readAll_eq_ok_iff hw).2 hx⟩

/-- The values that are read are those that are descriptions of a type, as objects or as lists at
every level, and what is read is what they say. -/
theorem ofJson_grammar {v : Json} (hv : v.WellFormed) :
    ((∃ t, ofJson v = .ok t) ↔ v.IsTypeDescription) ∧
      ∀ t, ofJson v = .ok t ↔ v.DescribesType t := by
  refine ⟨?_, fun t => ofJson_eq_ok_iff hv⟩
  rw [← Json.exists_describesType]
  exact exists_congr fun t => ofJson_eq_ok_iff hv

theorem ofJson_grammar_post :
    let five := Json.number (.whole ⟨5, by decide, by decide⟩)
    let rule := Json.object [("constraints", .array [five]), ("type", .string "maxLength")]
    let title := Json.object [("kind", .object [("scalar", .null)]), ("name", .string "title"),
      ("note", .null), ("validation", .array [rule, five, .array [.string "isEmail", five]])]
    let author := Json.array [.string "author", .string "union", .bool true,
      .object [("type", .string "User")]]
    let v := Json.array [.array [title, author]]
    v.WellFormed ∧ v.IsTypeDescription ∧ v.DescribesType ⟨[
      ⟨"title", .scalar, false, none, [⟨"maxLength", some [five]⟩, ⟨"isEmail", none⟩]⟩,
      ⟨"author", .other, true, some (.reference "User"), []⟩]⟩ := by
  intro five rule title author v
  have hv : v.WellFormed := by
    simp [v, title, author, rule, five, Json.WellFormed, Json.WellFormedItems,
      Json.WellFormedEntries]
  obtain ⟨ha, hd⟩ := ofJson_grammar hv
  exact ⟨hv, ha.1 ⟨_, rfl⟩, (hd _).1 rfl⟩

end InputType

end Intake
