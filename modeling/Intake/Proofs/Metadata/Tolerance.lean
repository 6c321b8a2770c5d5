import Intake.Proofs.Metadata.Interpretation
import Intake.Proofs.Reading.Record
import Mathlib.Data.List.Forall2

/-! Rules that are no use add nothing to the schema that is made of a description. -/

namespace Intake

inductive Inserts {α : Type} (P : α → Prop) : List α → List α → Prop
  | nil : Inserts P [] []
  | keep {x xs ys} : Inserts P xs ys → Inserts P (x :: xs) (x :: ys)
  | insert {y xs ys} : P y → Inserts P xs ys → Inserts P xs (y :: ys)

namespace RuleDescriptor

def Idle (r : RuleDescriptor) : Prop :=
  r.type ∉ ["maxLength", "minLength", "isLength", "isEmail", "isNotEmpty"] ∨
  r.type ∈ ["maxLength", "minLength"] ∧ r.natural? 0 = none ∨
  r.type = "isLength" ∧ r.natural? 0 = none ∧ r.natural? 1 = none

instance (r : RuleDescriptor) : Decidable r.Idle := inferInstanceAs (Decidable (_ ∨ _ ∨ _))

variable {m : Type → Type}

lemma Idle.checks_eq {r : RuleDescriptor} (h : r.Idle) :
    (r.checks : List (String × Check m)) = [] := by
  rcases h with ht | ⟨ht, hn⟩ | ⟨ht, h₀, h₁⟩
  · rw [checks]
    split
    · exact absurd (by simp [*]) ht
    · exact absurd (by simp [*]) ht
    · exact absurd (by simp [*]) ht
    · exact absurd (by simp [*]) ht
    · exact absurd (by simp [*]) ht
    · rfl
  · simp only [List.mem_cons, List.not_mem_nil, or_false] at ht
    rcases ht with ht | ht
    · simp only [checks, ht, bound?_eq, hn, Option.map_none, Option.toList_none]
    · simp only [checks, ht, bound?_eq, hn, Option.map_none, Option.toList_none]
  · simp only [checks, ht, bound?_eq, h₀, h₁, Option.map_none, Option.toList_none, List.append_nil]

end RuleDescriptor

namespace FieldDescriptor

def Unusable (d : FieldDescriptor) (entry : Json) : Prop :=
  ∀ r, RuleDescriptor.ofJson? entry = some r → d.valueKind ≠ .string ∨ r.Idle

instance (d : FieldDescriptor) (entry : Json) : Decidable (d.Unusable entry) :=
  match h : RuleDescriptor.ofJson? entry with
  | none => isTrue fun _ hr => nomatch h.symm.trans hr
  | some r => decidable_of_iff (d.valueKind ≠ .string ∨ r.Idle)
    ⟨fun hi _ hr => Option.some.inj (h.symm.trans hr) ▸ hi, fun hu => hu r h⟩

inductive Cluttered : Json → Json → Prop
  | same v : Cluttered v v
  | member {before after xs ys} {d : FieldDescriptor} :
      read (.object (before ++ ("validation", .array xs) :: after)) = .ok d →
      Inserts d.Unusable xs ys →
      Cluttered (.object (before ++ ("validation", .array xs) :: after))
        (.object (before ++ ("validation", .array ys) :: after))
  | element {name kind required type xs ys} {d : FieldDescriptor} :
      read (.array [name, kind, required, type, .array xs]) = .ok d →
      Inserts d.Unusable xs ys →
      Cluttered (.array [name, kind, required, type, .array xs])
        (.array [name, kind, required, type, .array ys])
  | given {before after x} : "validation" ∉ (before ++ after).map Prod.fst →
      (∀ xs, x ≠ .array xs) →
      Cluttered (.object (before ++ after)) (.object (before ++ ("validation", x) :: after))

variable {m : Type → Type}

lemma Unusable.registrations_eq {d : FieldDescriptor} (hk : d.valueKind = .string) {entry : Json}
    (h : d.Unusable entry) {r : RuleDescriptor} (hr : RuleDescriptor.ofJson? entry = some r) :
    (r.registrations : List (Registration m)) = [] := by
  have hi : r.Idle := (h r hr).resolve_left (not_not_intro hk)
  rw [RuleDescriptor.registrations, hi.checks_eq, List.map_nil]

lemma registrations_of_inserts {d : FieldDescriptor} (hk : d.valueKind = .string)
    {xs ys : List Json} (h : Inserts d.Unusable xs ys) :
    (ys.filterMap RuleDescriptor.ofJson?).flatMap (RuleDescriptor.registrations (m := m)) =
      (xs.filterMap RuleDescriptor.ofJson?).flatMap RuleDescriptor.registrations := by
  induction h with
  | nil => rfl
  | @keep x xs ys _ ih =>
    rw [List.filterMap_cons, List.filterMap_cons]
    cases RuleDescriptor.ofJson? x with
    | none => exact ih
    | some r => rw [List.flatMap_cons, List.flatMap_cons, ih]
  | @insert y xs ys hy _ ih =>
    rw [List.filterMap_cons]
    cases hr : RuleDescriptor.ofJson? y with
    | none => exact ih
    | some r => rw [List.flatMap_cons, hy.registrations_eq hk hr, ih, List.nil_append]

def Agrees (d d' : FieldDescriptor) : Prop :=
  d'.name = d.name ∧ ∀ m : Type → Type, (d'.schema : Schema m) = d.schema

lemma agrees_of_registrations {d : FieldDescriptor} {rules : List RuleDescriptor}
    (h : d.valueKind = .string → ∀ m : Type → Type,
      rules.flatMap (RuleDescriptor.registrations (m := m)) =
        d.validation.flatMap RuleDescriptor.registrations) :
    d.Agrees { d with validation := rules } := by
  refine ⟨rfl, fun m => ?_⟩
  have hk : FieldDescriptor.valueKind { d with validation := rules } = d.valueKind := rfl
  rw [schema_eq, schema_eq, hk]
  by_cases hs : d.valueKind = .string
  · rw [if_pos hs, if_pos hs, h hs m]
  · rw [if_neg hs, if_neg hs]

def rulesOf : Json → List RuleDescriptor
  | .array entries => entries.filterMap RuleDescriptor.ofJson?
  | _ => []

lemma readRules_eq (v : Json) : readRules v = .ok (rulesOf v) := by
  cases v <;> rfl

def rulesIn (entries : List (String × Json)) : List RuleDescriptor :=
  (entries.lookup "validation").elim [] rulesOf

lemma validation_ofEntries (entries : List (String × Json)) :
    (FieldReader.optional "validation" readRules []).ofEntries entries = .ok (rulesIn entries) := by
  simp only [FieldReader.optional, FieldReader.field, rulesIn]
  cases entries.lookup "validation" with
  | none => rfl
  | some v => exact readRules_eq v

lemma firstFault?_append_cons (before after : List (String × Json)) (x : Json) :
    fields.firstFault? (before ++ ("validation", x) :: after) = none ↔
      fields.firstFault? (before ++ after) = none := by
  have hx : (fields.faults.lookup "validation").bind (· x) = none := by
    change FieldReader.fault? readRules x = none
    rw [FieldReader.fault?, readRules_eq]
  simp only [FieldReader.firstFault?_eq_none, List.forall_mem_append, List.forall_mem_cons, hx,
    true_and]

lemma read_eq_ok {v : Json} {d : FieldDescriptor} :
    (read v : Except ReadError FieldDescriptor) = .ok d ↔
      fields.read "FieldMetadata" v = .ok (d.name, d.kind, d.required, d.type, d.validation) := by
  refine map_eq_ok.trans ⟨?_, fun h => ⟨_, h, rfl⟩⟩
  rintro ⟨⟨name, kind, required, type, rules⟩, h, rfl⟩
  exact h

lemma validation_of_read {entries : List (String × Json)} {d : FieldDescriptor}
    (h : read (.object entries) = .ok d) : d.validation = rulesIn entries := by
  obtain ⟨-, h⟩ := FieldReader.read_object_eq_ok.1 (read_eq_ok.1 h)
  simp only [fields, FieldReader.and_ofEntries, validation_ofEntries] at h
  exact (Except.ok.inj h.2.2.2.2).symm

lemma read_of_lookup {entries entries' : List (String × Json)} {d : FieldDescriptor}
    (h : read (.object entries) = .ok d)
    (hf : fields.firstFault? entries = none → fields.firstFault? entries' = none)
    (hl : ∀ name, name ≠ "validation" → entries'.lookup name = entries.lookup name) :
    read (.object entries') = .ok { d with validation := rulesIn entries' } := by
  obtain ⟨hn, h⟩ := FieldReader.read_object_eq_ok.1 (read_eq_ok.1 h)
  apply read_eq_ok.2
  apply FieldReader.read_object_eq_ok.2
  refine ⟨hf hn, ?_⟩
  simp only [fields, FieldReader.and_ofEntries, validation_ofEntries] at h ⊢
  obtain ⟨hname, hkind, hrequired, htype, -⟩ := h
  exact ⟨(FieldReader.field_ofEntries (hl _ (by decide))).trans hname,
    (FieldReader.field_ofEntries (hl _ (by decide))).trans hkind,
    (FieldReader.field_ofEntries (hl _ (by decide))).trans hrequired,
    (FieldReader.field_ofEntries (hl _ (by decide))).trans htype, trivial⟩

lemma read_member {before after : List (String × Json)} {xs ys : List Json} {d : FieldDescriptor}
    (h : read (.object (before ++ ("validation", .array xs) :: after)) = .ok d)
    (hi : Inserts d.Unusable xs ys) :
    ∃ d', read (.object (before ++ ("validation", .array ys) :: after)) = .ok d' ∧
      d.Agrees d' := by
  have hf := (firstFault?_append_cons before after (.array xs)).trans
    (firstFault?_append_cons before after (.array ys)).symm
  refine ⟨_, read_of_lookup h hf.1 fun name hn => ?_, agrees_of_registrations fun hk m => ?_⟩
  · rw [lookup_append_cons_of_ne hn, lookup_append_cons_of_ne hn]
  · rw [validation_of_read h, rulesIn, rulesIn, lookup_append_cons_self, lookup_append_cons_self]
    cases before.lookup "validation" with
    | some v => rfl
    | none => exact registrations_of_inserts hk hi

lemma read_element {name kind required type : Json} {xs ys : List Json} {d : FieldDescriptor}
    (h : read (.array [name, kind, required, type, .array xs]) = .ok d)
    (hi : Inserts d.Unusable xs ys) :
    ∃ d', read (.array [name, kind, required, type, .array ys]) = .ok d' ∧ d.Agrees d' := by
  have h := (FieldReader.read_array _ _ _).1 (read_eq_ok.1 h)
  simp only [fields, FieldReader.and_ofItems, FieldReader.required_ofItems] at h
  obtain ⟨_, ⟨_, hn, hname⟩, _, ⟨_, hk, hkind⟩, _, hr, _, ht, hv⟩ := h
  cases hn
  cases hk
  obtain ⟨rfl, hrequired⟩ := FieldReader.optional_ofItems_cons.1 hr
  obtain ⟨rfl, htype⟩ := FieldReader.optional_ofItems_cons.1 ht
  obtain ⟨-, hrules⟩ := FieldReader.optional_ofItems_cons.1 hv
  have hv : d.validation = rulesOf (.array xs) :=
    (Except.ok.inj ((readRules_eq _).symm.trans hrules)).symm
  refine ⟨{ d with validation := rulesOf (.array ys) }, ?_, agrees_of_registrations fun hk m => ?_⟩
  · apply read_eq_ok.2
    apply (FieldReader.read_array _ _ _).2
    simp only [fields, FieldReader.and_ofItems, FieldReader.required_ofItems]
    exact ⟨_, ⟨_, rfl, hname⟩, _, ⟨_, rfl, hkind⟩,
      _, FieldReader.optional_ofItems_cons.2 ⟨rfl, hrequired⟩,
      _, FieldReader.optional_ofItems_cons.2 ⟨rfl, htype⟩,
      FieldReader.optional_ofItems_cons.2 ⟨rfl, readRules_eq _⟩⟩
  · rw [hv]
    exact registrations_of_inserts hk hi

lemma read_given {before after : List (String × Json)} {x : Json} {d : FieldDescriptor}
    (h : read (.object (before ++ after)) = .ok d)
    (hn : "validation" ∉ (before ++ after).map Prod.fst) (hx : ∀ xs, x ≠ .array xs) :
    ∃ d', read (.object (before ++ ("validation", x) :: after)) = .ok d' ∧ d.Agrees d' := by
  have hl := lookup_eq_none.2 hn
  refine ⟨_, read_of_lookup h (firstFault?_append_cons before after x).2 fun name hn =>
    lookup_append_cons_of_ne hn before after x, agrees_of_registrations fun _ m => ?_⟩
  have hb : before.lookup "validation" = none := by
    rw [List.lookup_append, Option.or_eq_none_iff] at hl
    exact hl.1
  have hr : rulesOf x = [] := by
    cases x with
    | array xs => exact absurd rfl (hx xs)
    | _ => rfl
  rw [validation_of_read h, rulesIn, rulesIn, lookup_append_cons_self, hl, hb]
  exact congrArg (List.flatMap _) hr

lemma Cluttered.read {v v' : Json} (h : Cluttered v v') {d : FieldDescriptor}
    (hd : Readable.read v = .ok d) : ∃ d', Readable.read v' = .ok d' ∧ d.Agrees d' := by
  cases h with
  | same => exact ⟨d, hd, rfl, fun _ => rfl⟩
  | member hr hi =>
    obtain rfl := Except.ok.inj (hr.symm.trans hd)
    exact read_member hr hi
  | element hr hi =>
    obtain rfl := Except.ok.inj (hr.symm.trans hd)
    exact read_element hr hi
  | given hn hx => exact read_given hd hn hx

end FieldDescriptor

namespace InputType

inductive Cluttered : Json → Json → Prop
  | member {before after xs ys} : List.Forall₂ FieldDescriptor.Cluttered xs ys →
      Cluttered (.object (before ++ ("fields", .array xs) :: after))
        (.object (before ++ ("fields", .array ys) :: after))
  | element {xs ys} : List.Forall₂ FieldDescriptor.Cluttered xs ys →
      Cluttered (.array [.array xs]) (.array [.array ys])

def Agrees (t t' : InputType) : Prop := List.Forall₂ FieldDescriptor.Agrees t.fields t'.fields

lemma exists_readAll {xs ys : List Json} (h : List.Forall₂ FieldDescriptor.Cluttered xs ys)
    {ds : List FieldDescriptor} (hd : readAll xs = .ok ds) :
    ∃ ds', readAll ys = .ok ds' ∧ List.Forall₂ FieldDescriptor.Agrees ds ds' := by
  induction h generalizing ds with
  | nil =>
    cases hd
    exact ⟨[], rfl, .nil⟩
  | cons hx _ ih =>
    simp only [readAll, bind_eq_ok] at hd
    obtain ⟨d, hd, rest, hr, he⟩ := hd
    cases he
    obtain ⟨d', hd', ha⟩ := hx.read hd
    obtain ⟨rest', hr', hs⟩ := ih hr
    refine ⟨d' :: rest', ?_, .cons ha hs⟩
    rw [readAll, hd', hr']
    rfl

lemma ofJson_eq_ok {v : Json} {t : InputType} :
    ofJson v = .ok t ↔ fieldReader.read "InputObjectTypeMetadata" v = .ok t.fields := by
  refine map_eq_ok.trans ⟨?_, fun h => ⟨_, h, rfl⟩⟩
  rintro ⟨fields, h, rfl⟩
  exact h

lemma ofJson_member {before after : List (String × Json)} {xs ys : List Json} {t : InputType}
    (h : List.Forall₂ FieldDescriptor.Cluttered xs ys)
    (ht : ofJson (.object (before ++ ("fields", .array xs) :: after)) = .ok t) :
    ∃ t', ofJson (.object (before ++ ("fields", .array ys) :: after)) = .ok t' ∧ t.Agrees t' := by
  obtain ⟨hf, hr⟩ := FieldReader.read_object_eq_ok.1 (ofJson_eq_ok.1 ht)
  simp only [FieldReader.firstFault?_eq_none, List.forall_mem_append, List.forall_mem_cons] at hf
  obtain ⟨hbefore, hx, hafter⟩ := hf
  obtain ⟨ds, hd⟩ := FieldReader.fault?_eq_none.1 hx
  obtain ⟨ds', hd', ha⟩ := exists_readAll h hd
  have hf' : fieldReader.firstFault? (before ++ ("fields", .array ys) :: after) = none := by
    simp only [FieldReader.firstFault?_eq_none, List.forall_mem_append, List.forall_mem_cons]
    exact ⟨hbefore, FieldReader.fault?_eq_none.2 ⟨ds', hd'⟩, hafter⟩
  have hv {fs : List FieldDescriptor}
      (hfs : read ((before.lookup "fields").getD (.array ys)) = .ok fs) :
      ofJson (.object (before ++ ("fields", .array ys) :: after)) = .ok ⟨fs⟩ := by
    apply ofJson_eq_ok.2
    apply FieldReader.read_object_eq_ok.2
    exact ⟨hf', FieldReader.required_ofEntries.2 ⟨_, lookup_append_cons_self _ _ _ _, hfs⟩⟩
  obtain ⟨u, hu, ht⟩ := FieldReader.required_ofEntries.1 hr
  rw [lookup_append_cons_self] at hu
  obtain rfl := Option.some.inj hu
  cases hl : before.lookup "fields" with
  | some w =>
    rw [hl] at ht hv
    exact ⟨t, hv ht, List.forall₂_same.2 fun d _ => ⟨rfl, fun _ => rfl⟩⟩
  | none =>
    rw [hl] at ht hv
    obtain rfl : ds = t.fields := Except.ok.inj (hd.symm.trans ht)
    exact ⟨⟨ds'⟩, hv hd', ha⟩

lemma ofJson_element {xs ys : List Json} {t : InputType}
    (h : List.Forall₂ FieldDescriptor.Cluttered xs ys) (ht : ofJson (.array [.array xs]) = .ok t) :
    ∃ t', ofJson (.array [.array ys]) = .ok t' ∧ t.Agrees t' := by
  have hr := (FieldReader.read_array _ _ _).1 (ofJson_eq_ok.1 ht)
  obtain ⟨_, he, hx⟩ := FieldReader.required_ofItems.1 hr
  cases he
  obtain ⟨ds, hy, ha⟩ := exists_readAll h hx
  refine ⟨⟨ds⟩, ?_, ha⟩
  apply ofJson_eq_ok.2
  apply (FieldReader.read_array _ _ _).2
  exact FieldReader.required_ofItems.2 ⟨_, rfl, hy⟩

lemma Cluttered.ofJson {v v' : Json} (h : Cluttered v v') {t : InputType}
    (ht : InputType.ofJson v = .ok t) : ∃ t', InputType.ofJson v' = .ok t' ∧ t.Agrees t' := by
  cases h with
  | member h => exact ofJson_member h ht
  | element h => exact ofJson_element h ht

variable {m : Type → Type}

lemma Agrees.selected {t t' : InputType} (h : t.Agrees t') (only : Option (List String)) :
    List.Forall₂ FieldDescriptor.Agrees (t.selected only) (t'.selected only) := by
  cases only with
  | none => exact h
  | some names =>
    apply List.rel_filter _ h
    intro d d' hd
    simp only [hd.1]

lemma Agrees.compileSelected_eq {t t' : InputType} (h : t.Agrees t')
    (only : Option (List String)) :
    (t'.compileSelected only : Schema m) = t.compileSelected only := by
  refine (List.rel_foldl (P := Eq) ?_ rfl (h.selected only)).symm
  rintro s _ rfl d d' ⟨hn, hs⟩
  exact congrArg₂ s.field hn.symm (hs m).symm

/-- A description whose rules are cluttered with what is no use is read as well, and what is made of
it is the same schema. -/
theorem compile_cluttered {v v' : Json} (h : Cluttered v v') {t : InputType}
    (ht : ofJson v = .ok t) :
    ∃ t', ofJson v' = .ok t' ∧
      (∀ (m : Type → Type) only, (t'.compileSelected only : Schema m) = t.compileSelected only) ∧
      ∀ (m : Type → Type) [Monad m], (t'.compile : Schema m) = t.compile ∧
        ∀ w path, (t'.compile : Schema m).validateAt w path =
          (t.compile : Schema m).validateAt w path := by
  obtain ⟨t', ht', ha⟩ := h.ofJson ht
  refine ⟨t', ht', fun m only => ha.compileSelected_eq only, fun m _ => ?_⟩
  have hc : (t'.compile : Schema m) = t.compile := ha.compileSelected_eq none
  exact ⟨hc, fun w path => by rw [hc]⟩

theorem compile_cluttered_post :
    let five := Json.number (.whole ⟨5, by decide, by decide⟩)
    let rule (type : String) : Json := .object [("type", .string type)]
    let bounded := Json.object [("type", .string "maxLength"), ("constraints", .array [five])]
    let field (name type : String) : List (String × Json) :=
      [("name", .string name), ("kind", .string "scalar"), ("type", .string type)]
    let title (rules : List Json) : Json :=
      .object (field "title" "String" ++ [("validation", .array rules)])
    let rating (rules : List Json) : Json :=
      .array [.string "rating", .string "scalar", .bool true, .string "Int", .array rules]
    let v := Json.object [("fields", .array [title [bounded], rating [],
      .object (field "body" "String")])]
    let v' := Json.object [("fields", .array [
      title [rule "isUUID", bounded, .string "isEmail", rule "minLength"],
      rating [rule "isEmail"],
      .object (field "body" "String" ++ [("validation", .string "isNotEmpty")])])]
    let t : InputType := ⟨[
      ⟨"title", .scalar, false, some (.named "String"), [⟨"maxLength", some [five]⟩]⟩,
      ⟨"rating", .scalar, true, some (.named "Int"), []⟩,
      ⟨"body", .scalar, false, some (.named "String"), []⟩]⟩
    Cluttered v v' ∧ ofJson v = .ok t ∧
      ∃ t', ofJson v' = .ok t' ∧ (t'.compile : Schema Id) = t.compile := by
  intro five rule bounded field title rating v v' t
  have hc : Cluttered v v' := by
    refine @Cluttered.member [] [] _ _ (.cons ?_ (.cons ?_ (.cons ?_ .nil)))
    · refine @FieldDescriptor.Cluttered.member (field "title" "String") [] _ _ t.fields[0] rfl ?_
      exact .insert (by decide) (.keep (.insert (by decide) (.insert (by decide) .nil)))
    · refine .element (d := t.fields[1]) rfl ?_
      exact .insert (by decide) .nil
    · exact @FieldDescriptor.Cluttered.given (field "body" "String") [] _ (by decide) nofun
  have ht : ofJson v = .ok t := rfl
  obtain ⟨t', ht', -, hs⟩ := compile_cluttered hc ht
  exact ⟨hc, ht, t', ht', (hs Id).1⟩

end InputType

end Intake
