import Intake.Proofs.Schema.Branches
import Intake.Proofs.Schema.Steps
import Mathlib.Data.Finset.Card

namespace Intake

lemma find?_fst {α : Type} (entries : List (String × α)) (name : String) :
    (entries.find? (·.1 = name)).map Prod.snd = entries.lookup name := by
  rw [← lookup_map_key, ← lookup_map_snd, List.map_map]
  exact congrArg (·.lookup name) (List.map_id entries)

variable {m : Type → Type}

namespace Schema

structure Declares (s : Schema m) (declared : List (String × Schema m)) : Prop where
  fields : s.fields = (declared.map Prod.fst).eraseDups.filterMap fun name =>
    (declared.reverse.lookup name).map (name, ·)
  names : s.fields.map Prod.fst = (declared.map Prod.fst).eraseDups
  nodup : (s.fields.map Prod.fst).Nodup
  field? : ∀ name, s.field? name = declared.reverse.lookup name
  field?_eq_none : ∀ name, s.field? name = none ↔ name ∉ declared.map Prod.fst
  length : s.fields.length = (declared.map Prod.fst).toFinset.card
  isEmpty : s.fields.isEmpty = true ↔ (declared.map Prod.fst).toFinset.card = 0
  defaultNames : s.defaults.map Prod.fst = (s.fields.filter fun x =>
    x.2.base.default.isSome || x.2.typeDefault.isSome).map Prod.fst
  defaults : ∀ name field, s.field? name = some field →
    s.defaults.lookup name = (field.base.default <|> field.typeDefault)

lemma applyAll_emptyObject (steps : List (Step m)) : emptyObject.applyAll steps =
    object (.ofSteps steps) (assignAll Prod.fst Prod.snd (steps.filterMap Step.field?)) := by
  rw [emptyObject, applyAll_object, Base.foldl_after_empty]
  rfl

lemma lookup_declared (declared : List (String × Schema m)) (name : String) :
    (assignAll Prod.fst Prod.snd declared).lookup name = declared.reverse.lookup name := by
  rw [lookup_assignAll, find?_fst]

lemma declares_object (base : Base m) (declared : List (String × Schema m)) :
    (object base (assignAll Prod.fst Prod.snd declared)).Declares declared := by
  have hn := nodup_assignAll Prod.fst Prod.snd declared
  have he := names_assignAll Prod.fst Prod.snd declared
  have hl : (assignAll Prod.fst Prod.snd declared).length =
      (declared.map Prod.fst).toFinset.card := by
    have hs : ((assignAll Prod.fst Prod.snd declared).map Prod.fst).toFinset =
        (declared.map Prod.fst).toFinset := by
      ext name
      rw [he, List.mem_toFinset, List.mem_toFinset, List.mem_eraseDups]
    rw [← hs, List.toFinset_card_of_nodup hn, List.length_map]
  constructor
  · rw [← he]
    simp only [← lookup_declared]
    exact (filterMap_lookup hn).symm
  · exact he
  · exact hn
  · exact lookup_declared declared
  · intro name
    rw [field?, fields, lookup_eq_none, he, List.mem_eraseDups]
  · exact hl
  · rw [← hl]
    exact List.isEmpty_iff_length_eq_zero
  · have hd (x : String × Schema m) : x.2.default?.isSome =
        (x.2.base.default.isSome || x.2.typeDefault.isSome) := by
      rw [default?]
      cases x.2.base.default <;> rfl
    simp only [← hd]
    exact names_filterMap _ fun _ (field : Schema m) => field.default?
  · intro name field hf
    refine (lookup_filterMap hn (fun _ field => field.default?) name).trans ?_
    rw [show (assignAll Prod.fst Prod.snd declared).lookup name = some field from hf]
    rfl

lemma lookup_overridden (before : List (String × Schema m)) {rest : List (String × Schema m)}
    {name : String} (hr : name ∈ rest.map Prod.fst) (t t' : Schema m) (n : String) :
    (before ++ (name, t) :: rest).reverse.lookup n =
      (before ++ (name, t') :: rest).reverse.lookup n := by
  have hv (u : Schema m) : (before ++ (name, u) :: rest).reverse =
      rest.reverse ++ (name, u) :: before.reverse := by simp
  rw [hv, hv]
  by_cases hn : n = name
  · obtain ⟨x, hx⟩ : ∃ x, rest.reverse.lookup name = some x := by
      rw [← Option.ne_none_iff_exists', ne_eq, lookup_eq_none, List.map_reverse, List.mem_reverse]
      exact not_not_intro hr
    rw [hn, lookup_append_cons_self, lookup_append_cons_self, hx]
    rfl
  · rw [lookup_append_cons_of_ne hn, lookup_append_cons_of_ne hn]

lemma assignAll_overridden (before : List (String × Schema m)) {rest : List (String × Schema m)}
    {name : String} (hr : name ∈ rest.map Prod.fst) (t t' : Schema m) :
    assignAll Prod.fst Prod.snd (before ++ (name, t) :: rest) =
      assignAll Prod.fst Prod.snd (before ++ (name, t') :: rest) := by
  have hd (u : Schema m) : (assignAll Prod.fst Prod.snd (before ++ (name, u) :: rest)) = _ :=
    (declares_object .empty _).fields
  have hm (u : Schema m) : (before ++ (name, u) :: rest).map Prod.fst =
      before.map Prod.fst ++ name :: rest.map Prod.fst := List.map_append
  rw [hd t, hd t', hm, hm]
  simp only [lookup_overridden before hr t t']

lemma validateAt_object_fields [Monad m] [LawfulMonad m] (base : Base m)
    (fields : List (String × Schema m)) (entries : List (String × Json)) (path : Path) :
    (object base fields).validateAt (some (.object entries)) path = (do
      let parts ← fields.mapM fun x =>
        (x.1, ·) <$> x.2.validateAt (entries.lookup x.1) (path.field x.1)
      base.conclude (parts.map Prod.snd) (assembleObject parts) path) := by
  rw [validateAt, Base.enter, Base.admission_some_object]
  simp only [validateFields_eq]
  rfl

lemma names_mapM [Monad m] [LawfulMonad m] {α β : Type} (xs : List (String × α))
    (f : String × α → m β) :
    Yields (fun ys : List (String × β) => ys.map Prod.fst = xs.map Prod.fst)
      (xs.mapM fun x => (x.1, ·) <$> f x) := by
  induction xs with
  | nil =>
    rw [List.mapM_nil]
    exact yields_pure rfl
  | cons x rest ih =>
    rw [List.mapM_cons]
    refine (yields_map (P := fun y => y.1 = x.1) (fun _ => rfl) _).bind fun y hy => ?_
    exact ih.bind fun ys hys => yields_pure (congrArg₂ List.cons hy hys)

lemma keys_assembleObject {parts : List (String × Report)} {names : List String}
    (h : parts.map Prod.fst = names) :
    ∃ es, assembleObject parts = .object es ∧ (es.map Prod.fst).Sublist names := by
  refine ⟨_, rfl, ?_⟩
  rw [names_filterMap _ fun _ (r : Report) => r.value, ← h]
  exact List.filter_sublist.map Prod.fst

lemma keys_validateAt [Monad m] [LawfulMonad m] (base : Base m)
    (fields : List (String × Schema m)) (entries : List (String × Json)) (path : Path) :
    Yields (fun r => ∃ es, r.value = some (.object es) ∧
        (es.map Prod.fst).Sublist (fields.map Prod.fst))
      ((object base fields).validateAt (some (.object entries)) path) := by
  rw [validateAt_object_fields]
  refine (names_mapM fields _).bind fun parts hp => ?_
  obtain ⟨es, he, hs⟩ := keys_assembleObject hp
  rw [Base.conclude, bind_pure_comp]
  exact yields_map (fun _ => ⟨es, congrArg some he, hs⟩) _

/-- However often names are declared and whatever else is called in between, an object schema lists
each name once, where it was first declared and with the schema that was declared last. -/
theorem applyAll_declares [Monad m] [LawfulMonad m] :
    (∀ steps : List (Step m), (emptyObject.applyAll steps).Declares (steps.filterMap Step.field?)) ∧
      (∀ (steps : List (Step m)) entries path,
        let s := emptyObject.applyAll steps
        s.validateAt (some (.object entries)) path = (do
          let parts ← s.fields.mapM fun x =>
            (x.1, ·) <$> x.2.validateAt (entries.lookup x.1) (path.field x.1)
          s.base.conclude (parts.map Prod.snd) (assembleObject parts) path)) ∧
      (∀ (steps : List (Step m)) entries path,
        let s := emptyObject.applyAll steps
        Yields (fun r => ∃ es, r.value = some (.object es) ∧
            (es.map Prod.fst).Sublist (s.fields.map Prod.fst))
          (s.validateAt (some (.object entries)) path)) ∧
      ∀ (before rest : List (Step m)) name t t', name ∈ (rest.filterMap Step.field?).map Prod.fst →
        emptyObject.applyAll (before ++ .field name t :: rest) =
          emptyObject.applyAll (before ++ .field name t' :: rest) := by
  refine ⟨?_, ?_, ?_, ?_⟩
  · intro steps
    rw [applyAll_emptyObject]
    exact declares_object _ _
  · intro steps entries path
    simp only [applyAll_emptyObject]
    exact validateAt_object_fields _ _ entries path
  · intro steps entries path
    simp only [applyAll_emptyObject]
    exact keys_validateAt _ _ entries path
  · intro before rest name t t' hr
    have hf (u : Schema m) : (before ++ .field name u :: rest).filterMap Step.field? =
        before.filterMap Step.field? ++ (name, u) :: rest.filterMap Step.field? :=
      List.filterMap_append
    have hb (u : Schema m) : (before ++ .field name u :: rest).foldl Base.after .empty =
        rest.foldl Base.after (before.foldl Base.after .empty) := List.foldl_append
    rw [emptyObject, applyAll_object, applyAll_object, hb, hb, hf, hf]
    exact congrArg (object _) (assignAll_overridden _ hr t t')

theorem applyAll_declares_place :
    let city : Schema Id := string.withDefault (.string "Rome")
    let rest : List (Step Id) := [.optional, .field "zip" number, .field "city" city, .message ""]
    let s := emptyObject.applyAll (.field "city" boolean :: rest)
    let entries := [("zip", Json.null), ("street", .null)]
    LawfulMonad Id ∧ "city" ∈ (rest.filterMap Step.field?).map Prod.fst ∧
      s.fields = [("city", city), ("zip", number)] ∧ s.field? "city" = some city ∧
      s.field? "street" = none ∧ s.fields.length = 2 ∧
      s.defaults.map Prod.fst = ["city"] ∧ s.defaults.lookup "city" = some (.string "Rome") ∧
      (∃ es, (s.validateAt (some (.object entries)) .root).value = some (.object es) ∧
        (es.map Prod.fst).Sublist ["city", "zip"]) ∧
      s = emptyObject.applyAll (.field "city" file :: rest) := by
  intro city rest s entries
  obtain ⟨hd, -, hk, ho⟩ := applyAll_declares (m := Id)
  have hr : "city" ∈ (rest.filterMap Step.field?).map Prod.fst := by decide
  have hs : s.Declares (("city", boolean) :: rest.filterMap Step.field?) :=
    hd (.field "city" boolean :: rest)
  have hc : s.field? "city" = some city := (hs.field? "city").trans rfl
  refine ⟨inferInstance, hr, hs.fields.trans rfl, hc, ?_, ?_, ?_, ?_, ?_, ?_⟩
  · exact (hs.field?_eq_none "street").2 (by decide)
  · exact hs.length.trans (by decide)
  · exact hs.defaultNames.trans rfl
  · exact hs.defaults "city" city hc
  · obtain ⟨⟨r, h⟩, hv⟩ := hk (.field "city" boolean :: rest) entries .root
    rw [← hv]
    exact h
  · exact ho [] rest "city" boolean file hr

end Schema

end Intake
