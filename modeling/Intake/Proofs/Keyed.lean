import Intake.Keyed
import Mathlib.Data.List.Induction
import Mathlib.Data.List.Nodup
import Mathlib.Data.List.Perm.Basic
import Mathlib.Tactic.Lemma

namespace Intake

variable {α β : Type}

lemma lookup_of_mem {entries : List (String × α)} (hn : (entries.map Prod.fst).Nodup)
    {name : String} {value : α} (h : (name, value) ∈ entries) :
    entries.lookup name = some value := by
  induction entries with
  | nil => exact absurd h List.not_mem_nil
  | cons x rest ih =>
    rw [List.map_cons, List.nodup_cons] at hn
    rcases List.mem_cons.1 h with rfl | hr
    · exact List.lookup_cons_self
    · have hne : name ≠ x.1 := fun he => hn.1 (he ▸ List.mem_map_of_mem hr)
      rw [List.lookup_cons, beq_false_of_ne hne]
      exact ih hn.2 hr

lemma mem_of_lookup {entries : List (String × α)} {name : String} {value : α}
    (h : entries.lookup name = some value) : (name, value) ∈ entries := by
  obtain ⟨before, after, rfl, _⟩ := List.lookup_eq_some_iff.1 h
  exact List.mem_append_right _ List.mem_cons_self

lemma lookup_map_snd (f : α → β) (entries : List (String × α)) (name : String) :
    (entries.map fun x => (x.1, f x.2)).lookup name = (entries.lookup name).map f := by
  induction entries with
  | nil => rfl
  | cons x rest ih =>
    rw [List.map_cons, List.lookup_cons, List.lookup_cons, ih]
    cases name == x.1 <;> rfl

lemma lookup_map_key (key : α → String) (xs : List α) (name : String) :
    (xs.map fun x => (key x, x)).lookup name = xs.find? (key · = name) := by
  induction xs with
  | nil => rfl
  | cons x xs ih =>
    rw [List.map_cons, List.lookup_cons, List.find?_cons, ih]
    by_cases hx : name = key x
    · rw [hx, beq_self_eq_true, decide_eq_true rfl]
    · rw [beq_false_of_ne hx, decide_eq_false (Ne.symm hx)]

lemma lookup_eq_none {entries : List (String × α)} {name : String} :
    entries.lookup name = none ↔ name ∉ entries.map Prod.fst := by
  rw [List.lookup_eq_none_iff]
  simp only [List.mem_map, not_exists, not_and, bne_iff_ne, ne_eq]
  exact forall₂_congr fun _ _ => not_congr eq_comm

lemma lookup_append_cons_self (before after : List (String × α)) (name : String) (x : α) :
    (before ++ (name, x) :: after).lookup name = some ((before.lookup name).getD x) := by
  rw [List.lookup_append, List.lookup_cons_self]
  cases before.lookup name <;> rfl

lemma lookup_append_cons_of_ne {name n : String} (h : n ≠ name) (before after : List (String × α))
    (x : α) : (before ++ (name, x) :: after).lookup n = (before ++ after).lookup n := by
  rw [List.lookup_append, List.lookup_append, List.lookup_cons, beq_false_of_ne h]

section Rel

variable {R : α → β → Prop}

lemma exists_of_rel_some {x : α} {o : Option β} (h : Option.Rel R (some x) o) :
    ∃ y, o = some y ∧ R x y := by
  cases h with
  | some h => exact ⟨_, rfl, h⟩

lemma exists_of_rel_some_right {o : Option α} {y : β} (h : Option.Rel R o (some y)) :
    ∃ x, o = some x ∧ R x y := by
  cases h with
  | some h => exact ⟨_, rfl, h⟩

lemma mem_names_iff_of_rel {xs : List (String × α)} {ys : List (String × β)} {name : String}
    (h : Option.Rel R (xs.lookup name) (ys.lookup name)) :
    name ∈ xs.map Prod.fst ↔ name ∈ ys.map Prod.fst := by
  rw [← not_iff_not, ← lookup_eq_none, ← lookup_eq_none]
  generalize xs.lookup name = v, ys.lookup name = w at h
  cases h <;> simp

lemma rel_lookup_of_perm {xs : List (String × α)} {ys : List (String × β)}
    (hp : (xs.map Prod.fst).Perm (ys.map Prod.fst)) {name : String}
    (h : ∀ x y, xs.lookup name = some x → ys.lookup name = some y → R x y) :
    Option.Rel R (xs.lookup name) (ys.lookup name) := by
  cases hx : xs.lookup name with
  | none =>
    have hy : ys.lookup name = none :=
      lookup_eq_none.2 fun hm => lookup_eq_none.1 hx (hp.mem_iff.2 hm)
    rw [hy]
    exact .none
  | some x =>
    have hm : name ∈ ys.map Prod.fst := hp.mem_iff.1 (List.mem_map_of_mem (mem_of_lookup hx))
    cases hy : ys.lookup name with
    | none => exact absurd hm (lookup_eq_none.1 hy)
    | some y => exact .some (h x y hx hy)

end Rel

lemma filterMap_lookup {entries : List (String × α)} (hn : (entries.map Prod.fst).Nodup) :
    ((entries.map Prod.fst).filterMap fun name => (entries.lookup name).map (name, ·)) =
      entries := by
  have hx (x : String × α) (hx : x ∈ entries) :
      ((fun name => (entries.lookup name).map (name, ·)) ∘ Prod.fst) x = some x := by
    rw [Function.comp_apply, lookup_of_mem hn hx]
    rfl
  rw [List.filterMap_map, List.filterMap_congr hx, List.filterMap_some]

lemma flatMap_lookup {entries : List (String × α)} (hn : (entries.map Prod.fst).Nodup)
    (f : String × α → List β) : (entries.map Prod.fst).flatMap
      (fun name => (entries.lookup name).elim [] fun x => f (name, x)) = entries.flatMap f := by
  rw [List.flatMap_map]
  refine List.flatMap_congr fun x hx => ?_
  rw [lookup_of_mem hn hx]
  rfl

lemma perm_flatMap_of_lookup {γ : Type} {xs : List (String × α)} {ys : List (String × β)}
    (hn : (xs.map Prod.fst).Nodup) (hp : (xs.map Prod.fst).Perm (ys.map Prod.fst))
    {f : String × α → List γ} {g : String × β → List γ}
    (h : ∀ name x y, xs.lookup name = some x → ys.lookup name = some y →
      (f (name, x)).Perm (g (name, y))) : (xs.flatMap f).Perm (ys.flatMap g) := by
  rw [← flatMap_lookup hn, ← flatMap_lookup (hp.nodup hn)]
  refine hp.flatMap fun name _ => ?_
  have hr := rel_lookup_of_perm (R := fun x y => (f (name, x)).Perm (g (name, y))) hp (h name)
  generalize xs.lookup name = v, ys.lookup name = w at hr
  cases hr with
  | none => exact .refl _
  | some hr => exact hr

lemma lookup_filterMap {entries : List (String × α)} (hn : (entries.map Prod.fst).Nodup)
    (f : String → α → Option β) (name : String) :
    (entries.filterMap fun x => (f x.1 x.2).map (x.1, ·)).lookup name =
      (entries.lookup name).bind (f name) := by
  induction entries with
  | nil => rfl
  | cons x rest ih =>
    obtain ⟨n, y⟩ := x
    rw [List.map_cons, List.nodup_cons] at hn
    have ih := ih hn.2
    by_cases hx : name = n
    · subst hx
      have hr : rest.lookup name = none := lookup_eq_none.2 hn.1
      rw [hr, Option.bind_none] at ih
      cases hf : f name y <;> simp [hf, ih]
    · have hb : (name == n) = false := beq_false_of_ne hx
      cases hf : f n y <;> simp [List.lookup_cons, hf, hb, ih]

lemma names_filterMap (entries : List (String × α)) (f : String → α → Option β) :
    (entries.filterMap fun x => (f x.1 x.2).map (x.1, ·)).map Prod.fst =
      (entries.filter fun x => (f x.1 x.2).isSome).map Prod.fst := by
  induction entries with
  | nil => rfl
  | cons x rest ih => cases hf : f x.1 x.2 <;> simp [hf, ih]

lemma nodup_append_new {names : List String} (hn : names.Nodup) (name : String) :
    (if name ∈ names then names else names ++ [name]).Nodup := by
  split
  · exact hn
  · refine List.nodup_append.2 ⟨hn, List.nodup_singleton _, ?_⟩
    rintro _ ha _ hb rfl
    exact absurd (List.mem_singleton.1 hb ▸ ha) ‹_›

lemma names_assign (name : String) (value : α) (entries : List (String × α)) :
    (assign name value entries).map Prod.fst =
      if name ∈ entries.map Prod.fst then entries.map Prod.fst
      else entries.map Prod.fst ++ [name] := by
  induction entries with
  | nil => rfl
  | cons x rest ih =>
    by_cases hx : x.1 = name
    · simp [assign, hx]
    · simp only [assign, hx, if_false, List.map_cons, ih, List.mem_cons, Ne.symm hx, false_or]
      split <;> rfl

lemma nodup_assign (name : String) (value : α) {entries : List (String × α)}
    (hn : (entries.map Prod.fst).Nodup) : ((assign name value entries).map Prod.fst).Nodup := by
  rw [names_assign]
  exact nodup_append_new hn name

lemma lookup_assign (name : String) (value : α) (entries : List (String × α)) (n : String) :
    (assign name value entries).lookup n =
      if name = n then some value else entries.lookup n := by
  induction entries with
  | nil =>
    by_cases hn : name = n
    · simp [assign, hn]
    · have hb : (n == name) = false := beq_false_of_ne (Ne.symm hn)
      simp [assign, List.lookup_cons, hn, hb]
  | cons x rest ih =>
    obtain ⟨k, y⟩ := x
    by_cases hk : k = name
    · subst hk
      by_cases hn : k = n
      · simp [assign, hn]
      · have hb : (n == k) = false := beq_false_of_ne (Ne.symm hn)
        simp [assign, List.lookup_cons, hn, hb]
    · by_cases hn : n = k
      · subst hn
        simp [assign, hk, Ne.symm hk]
      · have hb : (n == k) = false := beq_false_of_ne hn
        simp [assign, List.lookup_cons, hk, hb, ih]

lemma map_assign (f : α → β) (name : String) (value : α) (entries : List (String × α)) :
    (assign name value entries).map (fun x => (x.1, f x.2)) =
      assign name (f value) (entries.map fun x => (x.1, f x.2)) := by
  induction entries with
  | nil => rfl
  | cons x rest ih => by_cases hx : x.1 = name <;> simp [assign, hx, ih]

lemma filter_assign (P : String → Bool) (name : String) (value : α)
    (entries : List (String × α)) : (assign name value entries).filter (fun x => P x.1) =
      if P name then assign name value (entries.filter fun x => P x.1)
      else entries.filter fun x => P x.1 := by
  induction entries with
  | nil => cases hp : P name <;> simp [assign, hp]
  | cons x rest ih =>
    by_cases hx : x.1 = name
    · subst hx
      cases hp : P x.1 <;> simp [assign, hp]
    · have ha : assign name value (x :: rest) = x :: assign name value rest := by simp [assign, hx]
      rw [ha, List.filter_cons, List.filter_cons, ih]
      cases P x.1 <;> cases P name <;> simp [assign, hx]

def assignAll (key : β → String) (value : β → α) (xs : List β) : List (String × α) :=
  xs.foldl (fun entries x => assign (key x) (value x) entries) []

section AssignAll

variable (key : β → String) (value : β → α)

lemma assignAll_concat (xs : List β) (x : β) :
    assignAll key value (xs ++ [x]) = assign (key x) (value x) (assignAll key value xs) :=
  List.foldl_append

lemma eraseDups_concat (names : List String) (name : String) :
    (names ++ [name]).eraseDups =
      if name ∈ names then names.eraseDups else names.eraseDups ++ [name] := by
  rw [List.eraseDups_append]
  split
  · simp [List.removeAll, *]
  · simp only [List.removeAll, List.elem_eq_mem, List.filter_cons, List.filter_nil, *]
    rfl

lemma names_assignAll (xs : List β) :
    (assignAll key value xs).map Prod.fst = (xs.map key).eraseDups := by
  induction xs using List.reverseRecOn with
  | nil => rfl
  | append_singleton xs x ih =>
    rw [assignAll_concat, names_assign, ih, List.map_append, List.map_singleton, eraseDups_concat]
    simp only [List.mem_eraseDups]

lemma nodup_assignAll (xs : List β) : ((assignAll key value xs).map Prod.fst).Nodup := by
  induction xs using List.reverseRecOn with
  | nil => exact List.nodup_nil
  | append_singleton xs x ih =>
    rw [assignAll_concat]
    exact nodup_assign _ _ ih

lemma lookup_assignAll (xs : List β) (name : String) :
    (assignAll key value xs).lookup name = (xs.reverse.find? (key · = name)).map value := by
  induction xs using List.reverseRecOn with
  | nil => rfl
  | append_singleton xs x ih =>
    rw [assignAll_concat, lookup_assign, ih, List.reverse_concat, List.find?_cons]
    by_cases hx : key x = name <;> simp [hx]

lemma filter_assignAll (P : String → Bool) (xs : List β) :
    (assignAll key value xs).filter (fun x => P x.1) =
      assignAll key value (xs.filter fun x => P (key x)) := by
  induction xs using List.reverseRecOn with
  | nil => rfl
  | append_singleton xs x ih =>
    rw [assignAll_concat, List.filter_append, filter_assign, ih]
    cases hp : P (key x) with
    | true => simp [hp, assignAll_concat]
    | false => simp [hp]

lemma assignAll_eq (xs : List β) :
    assignAll key value xs =
      ((xs.map key).eraseDups.filterMap fun name => xs.reverse.find? (key · = name)).map
        fun x => (key x, value x) := by
  rw [← filterMap_lookup (nodup_assignAll key value xs), names_assignAll, List.map_filterMap]
  apply List.filterMap_congr
  intro name _
  rw [lookup_assignAll]
  cases hf : xs.reverse.find? (key · = name) with
  | none => rfl
  | some x =>
    have hx : key x = name := of_decide_eq_true (List.find?_some (p := (key · = name)) hf)
    simp [hx]

end AssignAll

lemma names_assignNew (entries : List (String × α)) (name : String) (value : α) :
    (assignNew entries name value).map Prod.fst =
      if name ∈ entries.map Prod.fst then entries.map Prod.fst
      else entries.map Prod.fst ++ [name] := by
  rw [assignNew]
  cases h : entries.lookup name with
  | none => rw [if_neg (lookup_eq_none.1 h), List.map_append, List.map_singleton]
  | some x => rw [if_pos (List.mem_map_of_mem (mem_of_lookup h))]

lemma nodup_assignNew {entries : List (String × α)} (hn : (entries.map Prod.fst).Nodup)
    (name : String) (value : α) : ((assignNew entries name value).map Prod.fst).Nodup := by
  rw [names_assignNew]
  exact nodup_append_new hn name

lemma lookup_assignNew (entries : List (String × α)) (name : String) (value : α) (n : String) :
    (assignNew entries name value).lookup n =
      (entries.lookup n).or (if name = n then some value else none) := by
  rw [assignNew]
  by_cases hn : name = n
  · subst hn
    cases h : entries.lookup name <;> simp [List.lookup_append, h]
  · have hb : (n == name) = false := beq_false_of_ne (Ne.symm hn)
    cases h : entries.lookup name <;> simp [List.lookup_append, List.lookup_cons, hn, hb]

lemma mem_of_mem_assign {name : String} {value : α} {entries : List (String × α)}
    {x : String × α} (h : x ∈ assign name value entries) : x = (name, value) ∨ x ∈ entries := by
  induction entries with
  | nil => exact Or.inl (List.mem_singleton.1 h)
  | cons y rest ih =>
    rw [assign] at h
    split at h
    · rcases List.mem_cons.1 h with rfl | hr
      · exact Or.inl rfl
      · exact Or.inr (List.mem_cons_of_mem _ hr)
    · rcases List.mem_cons.1 h with rfl | hr
      · exact Or.inr List.mem_cons_self
      · exact (ih hr).imp_right (List.mem_cons_of_mem _)

end Intake
