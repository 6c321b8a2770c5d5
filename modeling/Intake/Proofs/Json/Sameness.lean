import Intake.Json.Basic
import Intake.Proofs.Keyed
import Mathlib.Data.List.Forall2
import Mathlib.Data.List.Perm.Subperm

namespace Intake

namespace Json

theorem induct {motive : Json → Prop} (null : motive .null) (bool : ∀ b, motive (.bool b))
    (number : ∀ n, motive (.number n)) (string : ∀ s, motive (.string s))
    (array : ∀ xs, (∀ x ∈ xs, motive x) → motive (.array xs))
    (object : ∀ xs, (∀ x ∈ xs, motive x.2) → motive (.object xs)) (v : Json) : motive v :=
  @rec motive (fun xs => ∀ x ∈ xs, motive x) (fun xs => ∀ x ∈ xs, motive x.2)
    (fun x => motive x.2) null bool number string array object nofun
    (fun _ _ hx hr => List.forall_mem_cons.2 ⟨hx, hr⟩) nofun
    (fun _ _ hx hr => List.forall_mem_cons.2 ⟨hx, hr⟩) (fun _ _ hx => hx) v

lemma wellFormed_array {xs : List Json} : (array xs).WellFormed ↔ ∀ x ∈ xs, x.WellFormed := by
  change WellFormedItems xs ↔ _
  induction xs with
  | nil => simp [WellFormedItems]
  | cons x rest ih => rw [WellFormedItems, ih, List.forall_mem_cons]

lemma wellFormed_object {xs : List (String × Json)} : (object xs).WellFormed ↔
    (xs.map Prod.fst).Nodup ∧ ∀ x ∈ xs, x.2.WellFormed := by
  refine and_congr_right' ?_
  induction xs with
  | nil => simp [WellFormedEntries]
  | cons x rest ih => rw [WellFormedEntries, ih, List.forall_mem_cons]

lemma sameEntries_iff {xs ys : List (String × Json)} : sameEntries xs ys = true ↔
    ∀ x ∈ xs, ∃ y, ys.lookup x.1 = some y ∧ x.2.same y = true := by
  induction xs with
  | nil => simp [sameEntries]
  | cons x rest ih =>
    rw [sameEntries, Bool.and_eq_true, ih, List.forall_mem_cons]
    refine and_congr_left' ?_
    cases ys.lookup x.1 <;> simp

lemma same_object {xs ys : List (String × Json)} : (object xs).same (object ys) = true ↔
    xs.length = ys.length ∧ ∀ x ∈ xs, ∃ y, ys.lookup x.1 = some y ∧ x.2.same y = true := by
  rw [same, Bool.and_eq_true, sameEntries_iff, beq_iff_eq]

structure Alike (v w : Json) : Prop where
  left : v.WellFormed
  right : w.WellFormed
  same : v.same w = true

lemma alike_array {xs ys : List Json} :
    (array xs).Alike (array ys) ↔ List.Forall₂ Alike xs ys := by
  induction xs generalizing ys with
  | nil =>
    cases ys with
    | nil => exact iff_of_true ⟨trivial, trivial, rfl⟩ .nil
    | cons y ys => exact iff_of_false (fun h => Bool.false_ne_true h.same) nofun
  | cons x rest ih =>
    cases ys with
    | nil => exact iff_of_false (fun h => Bool.false_ne_true h.same) nofun
    | cons y ys =>
      rw [List.forall₂_cons, ← ih]
      constructor
      · rintro ⟨⟨hx, hr⟩, ⟨hy, hr'⟩, hs⟩
        obtain ⟨hs, hs'⟩ := (Bool.and_eq_true _ _).mp hs
        exact ⟨⟨hx, hy, hs⟩, hr, hr', hs'⟩
      · rintro ⟨⟨hx, hy, hs⟩, hr, hr', hs'⟩
        exact ⟨⟨hx, hr⟩, ⟨hy, hr'⟩, (Bool.and_eq_true _ _).mpr ⟨hs, hs'⟩⟩

lemma Alike.lookup {xs ys : List (String × Json)} (h : (object xs).Alike (object ys))
    (name : String) : Option.Rel Alike (xs.lookup name) (ys.lookup name) := by
  obtain ⟨hx, hy, hs⟩ := h
  obtain ⟨hn, hx⟩ := wellFormed_object.1 hx
  obtain ⟨_, hy⟩ := wellFormed_object.1 hy
  obtain ⟨hl, hs⟩ := same_object.1 hs
  have hi : xs.map Prod.fst ⊆ ys.map Prod.fst := by
    intro n hn
    obtain ⟨x, hx, rfl⟩ := List.mem_map.1 hn
    obtain ⟨y, hl, _⟩ := hs x hx
    exact List.mem_map.2 ⟨(x.1, y), mem_of_lookup hl, rfl⟩
  have hp : (xs.map Prod.fst).Perm (ys.map Prod.fst) :=
    (List.Nodup.subperm hn hi).perm_of_length_le (by simp [hl])
  apply rel_lookup_of_perm hp
  intro x y hx' hy'
  have hm := mem_of_lookup hx'
  obtain ⟨z, hz, hs⟩ := hs _ hm
  obtain rfl := Option.some.inj (hy'.symm.trans hz)
  exact ⟨hx _ hm, hy _ (mem_of_lookup hy'), hs⟩

lemma alike_object {xs ys : List (String × Json)} : (object xs).Alike (object ys) ↔
    (xs.map Prod.fst).Nodup ∧ (ys.map Prod.fst).Nodup ∧
      ∀ name, Option.Rel Alike (xs.lookup name) (ys.lookup name) := by
  constructor
  · intro h
    exact ⟨(wellFormed_object.1 h.left).1, (wellFormed_object.1 h.right).1, h.lookup⟩
  · rintro ⟨hx, hy, hr⟩
    have hp : (xs.map Prod.fst).Perm (ys.map Prod.fst) :=
      (List.perm_ext_iff_of_nodup hx hy).2 fun name => mem_names_iff_of_rel (hr name)
    have hl (x : String × Json) (hm : x ∈ xs) : ∃ y, ys.lookup x.1 = some y ∧ x.2.Alike y :=
      exists_of_rel_some (lookup_of_mem hx hm ▸ hr x.1)
    have hl' (y : String × Json) (hm : y ∈ ys) : ∃ x, xs.lookup y.1 = some x ∧ x.Alike y.2 :=
      exists_of_rel_some_right (lookup_of_mem hy hm ▸ hr y.1)
    refine ⟨wellFormed_object.2 ⟨hx, fun x hm => ?_⟩, wellFormed_object.2 ⟨hy, fun y hm => ?_⟩,
      same_object.2 ⟨?_, fun x hm => ?_⟩⟩
    · obtain ⟨_, _, h⟩ := hl x hm
      exact h.left
    · obtain ⟨_, _, h⟩ := hl' y hm
      exact h.right
    · simpa using hp.length_eq
    · obtain ⟨y, hy, h⟩ := hl x hm
      exact ⟨y, hy, h.same⟩

lemma Alike.refl {v : Json} (hv : v.WellFormed) : v.Alike v := by
  induction v using induct with
  | null => exact ⟨hv, hv, rfl⟩
  | bool b => exact ⟨hv, hv, beq_self_eq_true b⟩
  | string s => exact ⟨hv, hv, beq_self_eq_true s⟩
  | number n =>
    refine ⟨hv, hv, ?_⟩
    cases n <;> exact beq_self_eq_true _
  | array xs ih =>
    rw [alike_array, List.forall₂_same]
    exact fun x hx => ih x hx (wellFormed_array.1 hv x hx)
  | object xs ih =>
    obtain ⟨hn, hv⟩ := wellFormed_object.1 hv
    refine alike_object.2 ⟨hn, hn, fun name => ?_⟩
    cases hl : xs.lookup name with
    | none => exact .none
    | some x =>
      have hm := mem_of_lookup hl
      exact .some (ih _ hm (hv _ hm))

lemma Alike.typeName_eq {v w : Json} (h : v.Alike w) : v.typeName = w.typeName := by
  cases v <;> cases w <;> first | rfl | exact absurd h.same Bool.false_ne_true

lemma Alike.eq_string {s : String} {w : Json} (h : (string s).Alike w) : w = string s := by
  cases w with
  | string t => exact congrArg string (beq_iff_eq.1 h.same).symm
  | _ => exact absurd h.same Bool.false_ne_true

lemma Alike.eq_whole {n : Whole} {w : Json} (h : (number (.whole n)).Alike w) :
    w = number (.whole n) := by
  cases w with
  | number m =>
    cases m with
    | whole m =>
      cases m
      cases n
      cases beq_iff_eq.1 h.same
      rfl
    | double x => exact absurd h.same Bool.false_ne_true
  | _ => exact absurd h.same Bool.false_ne_true

lemma Alike.symm {v w : Json} (h : v.Alike w) : w.Alike v := by
  induction v using induct generalizing w with
  | array xs ih =>
    cases w with
    | array ys =>
      obtain ⟨hl, hr⟩ := List.forall₂_iff_zip.1 (alike_array.1 h)
      refine alike_array.2 (List.Forall₂.flip ((List.forall₂_iff_zip).2 ⟨hl, fun {x y} hm => ?_⟩))
      exact ih x (List.of_mem_zip hm).1 (hr hm)
    | _ => exact absurd h.same Bool.false_ne_true
  | object xs ih =>
    cases w with
    | object ys =>
      obtain ⟨hx, hy, hr⟩ := alike_object.1 h
      have hp : (ys.map Prod.fst).Perm (xs.map Prod.fst) :=
        (List.perm_ext_iff_of_nodup hy hx).2 fun name => (mem_names_iff_of_rel (hr name)).symm
      refine alike_object.2 ⟨hy, hx, fun name => rel_lookup_of_perm hp fun y x hy hx => ?_⟩
      have hr := hr name
      rw [hx, hy, Option.rel_some_some] at hr
      exact ih (name, x) (mem_of_lookup hx) hr
    | _ => exact absurd h.same Bool.false_ne_true
  | number m =>
    cases w with
    | number n =>
      refine ⟨h.right, h.left, ?_⟩
      have hs := h.same
      cases m <;> cases n <;> first | exact BEq.symm hs | exact hs
    | _ => exact absurd h.same Bool.false_ne_true
  | null =>
    cases w with
    | null => exact h
    | _ => exact absurd h.same Bool.false_ne_true
  | bool b =>
    cases w with
    | bool c => exact ⟨h.right, h.left, BEq.symm h.same⟩
    | _ => exact absurd h.same Bool.false_ne_true
  | string s =>
    obtain rfl := h.eq_string
    exact h

inductive Reordered : Json → Json → Prop
  | refl v : Reordered v v
  | array {xs ys : List Json} : xs.length = ys.length →
      (∀ x ∈ xs.zip ys, Reordered x.1 x.2) → Reordered (array xs) (array ys)
  | object {xs ys : List (String × Json)} : (xs.map Prod.fst).Perm (ys.map Prod.fst) →
      (∀ name x y, xs.lookup name = some x → ys.lookup name = some y → Reordered x y) →
      Reordered (object xs) (object ys)

lemma Reordered.exists_array {xs : List Json} {w : Json} (h : (Json.array xs).Reordered w) :
    ∃ ys, w = Json.array ys ∧ List.Forall₂ Reordered xs ys := by
  cases h with
  | refl => exact ⟨xs, rfl, List.forall₂_same.2 fun x _ => .refl x⟩
  | array hl hx => exact ⟨_, rfl, List.forall₂_iff_zip.2 ⟨hl, fun hm => hx _ hm⟩⟩

lemma Reordered.exists_object {xs : List (String × Json)} {w : Json}
    (h : (Json.object xs).Reordered w) : ∃ ys, w = Json.object ys ∧
      ∀ name, Option.Rel Reordered (xs.lookup name) (ys.lookup name) := by
  cases h with
  | refl =>
    refine ⟨xs, rfl, fun name => rel_lookup_of_perm (.refl _) fun x y hx hy => ?_⟩
    obtain rfl := Option.some.inj (hx.symm.trans hy)
    exact .refl x
  | object hp hx => exact ⟨_, rfl, fun name => rel_lookup_of_perm hp (hx name)⟩

lemma reordered_of_perm {xs ys : List (String × Json)} (hp : xs.Perm ys)
    (hn : (xs.map Prod.fst).Nodup) : (object xs).Reordered (object ys) := by
  refine .object (hp.map Prod.fst) fun name x y hx hy => ?_
  have hm : (name, y) ∈ xs := hp.mem_iff.2 (mem_of_lookup hy)
  obtain rfl := Option.some.inj (hx.symm.trans (lookup_of_mem hn hm))
  exact .refl x

theorem Reordered.alike {v w : Json} (h : v.Reordered w) (hv : v.WellFormed) (hw : w.WellFormed) :
    v.Alike w := by
  induction h with
  | refl v => exact .refl hv
  | array hl _ ih =>
    rw [wellFormed_array] at hv hw
    refine alike_array.2 (List.forall₂_iff_zip.2 ⟨hl, fun {x y} hm => ?_⟩)
    obtain ⟨hx, hy⟩ := List.of_mem_zip hm
    exact ih _ hm (hv x hx) (hw y hy)
  | object hp _ ih =>
    obtain ⟨hx, hv⟩ := wellFormed_object.1 hv
    obtain ⟨hy, hw⟩ := wellFormed_object.1 hw
    refine alike_object.2 ⟨hx, hy, fun name => rel_lookup_of_perm hp fun x y h h' => ?_⟩
    exact ih name x y h h' (hv _ (mem_of_lookup h)) (hw _ (mem_of_lookup h'))

end Json

end Intake
