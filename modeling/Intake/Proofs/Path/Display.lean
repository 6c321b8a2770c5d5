import Intake.Proofs.Path
import Intake.Report.Finding

/-! Paths told apart by what readers see of them. -/

namespace Intake

def Unmarked (s : List Char) : Prop := '.' ∉ s ∧ '[' ∉ s

instance (s : List Char) : Decidable (Unmarked s) :=
  inferInstanceAs (Decidable ('.' ∉ s ∧ '[' ∉ s))

lemma Unmarked.of_cons {c : Char} {s : List Char} (h : Unmarked (c :: s)) :
    c ≠ '.' ∧ c ≠ '[' ∧ Unmarked s := by
  obtain ⟨hd, hb⟩ := h
  rw [List.mem_cons, not_or] at hd hb
  exact ⟨Ne.symm hd.1, Ne.symm hb.1, hd.2, hb.2⟩

lemma unmarked_digits (i : Nat) : Unmarked (Nat.toDigits 10 i ++ [']']) := by
  have hm {c : Char} (hd : c.isDigit = false) (hb : c ≠ ']') :
      c ∉ Nat.toDigits 10 i ++ [']'] := by
    intro h
    rcases List.mem_append.1 h with h | h
    · rw [Nat.isDigit_of_mem_toDigits (by decide) (by decide) h] at hd
      cases hd
    · exact hb (List.mem_singleton.1 h)
  exact ⟨hm (by decide) (by decide), hm (by decide) (by decide)⟩

def Segment.Unmarked : Segment → Prop
  | field name => Intake.Unmarked name.toList
  | index _ => True

instance : (s : Segment) → Decidable s.Unmarked
  | .field name => inferInstanceAs (Decidable (Unmarked name.toList))
  | .index _ => inferInstanceAs (Decidable True)

namespace Path

/-- No name has a mark, and there is no leading field without a name, which could not be seen. -/
structure Legible (p : Path) : Prop where
  unmarked : ∀ s ∈ p.segments, s.Unmarked
  visible : p.segments.head? ≠ some (.field "")

instance (p : Path) : Decidable p.Legible :=
  decidable_of_iff ((∀ s ∈ p.segments, s.Unmarked) ∧ p.segments.head? ≠ some (.field ""))
    ⟨fun ⟨hu, hv⟩ => ⟨hu, hv⟩, fun ⟨hu, hv⟩ => ⟨hu, hv⟩⟩

def readBefore (c : Char) (read : List Char × List Segment) : List Char × List Segment :=
  if c = '.' then ([], .field (String.ofList read.1) :: read.2)
  else if c = '[' then ([], .index (Nat.ofDigitChars 10 read.1.dropLast 0) :: read.2)
  else (c :: read.1, read.2)

def ofDisplay (text : String) : Path :=
  let read := text.toList.foldr readBefore ([], [])
  if read.1 = [] then ⟨read.2⟩ else ⟨.field (String.ofList read.1) :: read.2⟩

lemma foldr_readBefore {s : List Char} (hs : Unmarked s) (read : List Char × List Segment) :
    s.foldr readBefore read = (s ++ read.1, read.2) := by
  induction s with
  | nil => rfl
  | cons c s ih =>
    obtain ⟨hd, hb, hs⟩ := hs.of_cons
    rw [List.foldr_cons, ih hs, readBefore, if_neg hd, if_neg hb, List.cons_append]

@[simp] lemma toList_innerText_field (name : String) (rest : List Segment) :
    (innerText (.field name :: rest)).toList =
      '.' :: (name.toList ++ (innerText rest).toList) := by
  simp [innerText]

@[simp] lemma toList_innerText_index (i : Nat) (rest : List Segment) :
    (innerText (.index i :: rest)).toList =
      '[' :: (Nat.toDigits 10 i ++ [']'] ++ (innerText rest).toList) := by
  simp [innerText]

lemma foldr_innerText {segments : List Segment} (h : ∀ s ∈ segments, s.Unmarked) :
    (innerText segments).toList.foldr readBefore ([], []) = ([], segments) := by
  induction segments with
  | nil => rfl
  | cons s rest ih =>
    obtain ⟨hs, hr⟩ := List.forall_mem_cons.1 h
    cases s with
    | field name =>
      rw [toList_innerText_field, List.foldr_cons, List.foldr_append, ih hr, foldr_readBefore hs,
        readBefore, if_pos rfl, List.append_nil, String.ofList_toList]
    | index i =>
      rw [toList_innerText_index, List.foldr_cons, List.foldr_append, ih hr,
        foldr_readBefore (unmarked_digits i), readBefore, if_neg (by decide), if_pos rfl,
        List.append_nil, List.dropLast_concat, Nat.ofDigitChars_ten_toDigits]

theorem ofDisplay_display {p : Path} (hp : p.Legible) : ofDisplay p.display = p := by
  obtain ⟨segments⟩ := p
  obtain ⟨hu, hv⟩ := hp
  cases segments with
  | nil => rfl
  | cons s rest =>
    cases s with
    | field name =>
      obtain ⟨hs, hr⟩ := List.forall_mem_cons.1 hu
      have hf : (name ++ innerText rest).toList.foldr readBefore ([], []) =
          (name.toList, rest) := by
        rw [String.toList_append, List.foldr_append, foldr_innerText hr, foldr_readBefore hs,
          List.append_nil]
      have hn : name.toList ≠ [] := by
        intro h
        rw [String.toList_eq_nil_iff.1 h] at hv
        exact hv rfl
      simp only [ofDisplay, display, hf]
      rw [if_neg hn, String.ofList_toList]
    | index i =>
      simp only [ofDisplay, display, foldr_innerText hu, if_true]

lemma display_inj {p q : Path} (hp : p.Legible) (hq : q.Legible) :
    p.display = q.display ↔ p = q := by
  refine ⟨fun h => ?_, congrArg display⟩
  rw [← ofDisplay_display hp, h, ofDisplay_display hq]

lemma innerText_append (xs ys : List Segment) :
    innerText (xs ++ ys) = innerText xs ++ innerText ys := by
  induction xs with
  | nil => simp [innerText]
  | cons s rest ih => cases s <;> simp only [List.cons_append, innerText, ih, String.append_assoc]

lemma display_append {xs : List Segment} (hx : xs ≠ []) (ys : List Segment) :
    (Path.mk (xs ++ ys)).display = (Path.mk xs).display ++ innerText ys := by
  obtain ⟨s, rest, rfl⟩ := List.exists_cons_of_ne_nil hx
  cases s with
  | field name =>
    simp only [List.cons_append, display, innerText_append, String.append_assoc]
  | index i => exact innerText_append (.index i :: rest) ys

lemma display_field_ne_display_index (before rest rest' : List Segment) {name : String} (i : Nat)
    (hn : name ≠ "") (hd : ∀ c ∈ name.toList, c.isDigit = true) :
    (Path.mk (before ++ .field name :: rest)).display ≠
      (Path.mk (before ++ .index i :: rest')).display := by
  intro h
  by_cases hb : before = []
  · subst hb
    obtain ⟨c, cs, hc⟩ := List.exists_cons_of_ne_nil (mt String.toList_eq_nil_iff.1 hn)
    have hl := congrArg String.toList h
    simp only [List.nil_append, display, String.toList_append, hc, List.cons_append,
      toList_innerText_index, List.cons.injEq] at hl
    rw [hc, hl.1] at hd
    exact absurd (hd '[' List.mem_cons_self) (by decide)
  · rw [display_append hb, display_append hb, String.append_right_inj] at h
    have hl := congrArg String.toList h
    rw [toList_innerText_field, toList_innerText_index] at hl
    exact absurd (List.cons.inj hl).1 (by decide)

lemma dotted_field_eq_dotted_index (before rest : List Segment) (i : Nat) :
    (Path.mk (before ++ .field (toString i) :: rest)).dotted =
      (Path.mk (before ++ .index i :: rest)).dotted := by
  simp only [dotted, texts, List.map_append, List.map_cons, Segment.text]

theorem display_eq_iff_eq {p q : Path} (hp : p.Legible) (hq : q.Legible) :
    ofDisplay p.display = p ∧ (p.display = q.display ↔ p = q) ∧
      (∀ before rest rest' name i, name ≠ "" → (∀ c ∈ name.toList, c.isDigit = true) →
        (Path.mk (before ++ .field name :: rest)).display ≠
          (Path.mk (before ++ .index i :: rest')).display) ∧
      ∀ before rest i, (Path.mk (before ++ .field (toString i) :: rest)).dotted =
        (Path.mk (before ++ .index i :: rest)).dotted :=
  ⟨ofDisplay_display hp, display_inj hp hq, fun before rest rest' _ i hn hd =>
    display_field_ne_display_index before rest rest' i hn hd, dotted_field_eq_dotted_index⟩

theorem display_eq_iff_eq_users :
    let rest : List Segment := [.field "", .index 0, .field "a]"]
    let p : Path := ⟨.field "users" :: .index 10 :: rest⟩
    let q : Path := ⟨.field "users" :: .field "10" :: rest⟩
    p.Legible ∧ q.Legible ∧ p.display = "users[10].[0].a]" ∧ ofDisplay "users[10].[0].a]" = p ∧
      q.display = "users.10.[0].a]" ∧ p.display ≠ q.display ∧ p.dotted = q.dotted := by
  intro rest p q
  have hp : p.Legible := by decide
  have hq : q.Legible := by decide
  have hs : p.display = "users[10].[0].a]" := by decide
  have ht : toString 10 = "10" := by decide
  obtain ⟨hr, -, hn, hd⟩ := display_eq_iff_eq hp hq
  rw [hs] at hr
  have hd : q.dotted = p.dotted := by
    have h := hd [.field "users"] rest 10
    rwa [ht] at h
  have hn : q.display ≠ p.display :=
    hn [.field "users"] rest rest "10" 10 (by decide) (by simp)
  exact ⟨hp, hq, hs, hr, by decide, hn.symm, hd.symm⟩

end Path

namespace Finding

def shownPath (f : Finding) : Path := if f.path.isRoot then .ofFields ["(root)"] else f.path

lemma display_eq (f : Finding) : f.display = f.shownPath.display ++ ": " ++ f.message := by
  have hr : (Path.ofFields ["(root)"]).display = "(root)" := by decide
  rw [display, shownPath]
  split
  · rw [hr]
  · rfl

lemma legible_shownPath {f : Finding} (hf : f.path.Legible) : f.shownPath.Legible := by
  rw [shownPath]
  split
  · decide
  · exact hf

theorem display_eq_iff {f g : Finding} (hf : f.path.Legible) (hg : g.path.Legible)
    (hm : f.message = g.message) : f.display = g.display ↔ f.shownPath = g.shownPath := by
  rw [display_eq, display_eq, hm, String.append_left_inj, String.append_left_inj,
    Path.display_inj (legible_shownPath hf) (legible_shownPath hg)]

end Finding

end Intake
