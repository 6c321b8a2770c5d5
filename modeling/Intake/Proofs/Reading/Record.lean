import Intake.Proofs.Json.Sameness
import Intake.Reading.Record

namespace Intake

variable {ε α β γ : Type}

lemma bind_eq_ok {x : Except ε α} {f : α → Except ε β} {y : β} :
    x >>= f = .ok y ↔ ∃ a, x = .ok a ∧ f a = .ok y := by
  cases x with
  | error e => exact iff_of_false nofun (by simp)
  | ok a => simp [bind, Except.bind]

lemma map_eq_ok {x : Except ε α} {f : α → β} {y : β} :
    f <$> x = .ok y ↔ ∃ a, x = .ok a ∧ f a = y := by
  cases x with
  | error e => exact iff_of_false nofun (by simp)
  | ok a => simp [Functor.map, Except.map]

lemma toOption_eq_some {x : Except ε α} {a : α} : x.toOption = some a ↔ x = .ok a := by
  cases x <;> simp [Except.toOption]

lemma read_string_eq_ok {v : Json} {s : String} :
    (read v : Except ReadError String) = .ok s ↔ v = .string s := by
  cases v <;> simp [read]

lemma readWhole_eq_ok {type : String} {narrow : Whole → Option α} {v : Json} {x : α} :
    readWhole type narrow v = .ok x ↔ ∃ n, v = .number (.whole n) ∧ narrow n = some x := by
  cases v with
  | number n =>
    cases n with
    | whole n => cases h : narrow n <;> simp [readWhole, h]
    | double y => simp [readWhole]
  | _ => simp [readWhole]

lemma read_uInt64_eq_ok {v : Json} {x : UInt64} : (read v : Except ReadError UInt64) = .ok x ↔
    ∃ n, v = .number (.whole n) ∧ n.toUInt64? = some x :=
  readWhole_eq_ok

lemma readAll_eq_ok [Readable α] {vs : List Json} {xs : List α} :
    readAll vs = .ok xs ↔ List.Forall₂ (fun v x => read v = .ok x) vs xs := by
  induction vs generalizing xs with
  | nil => cases xs <;> simp [readAll]
  | cons v rest ih =>
    simp only [readAll, bind_eq_ok, ih, List.forall₂_cons_left_iff]
    simp [pure, Except.pure, eq_comm]

namespace FieldReader

variable {f : FieldReader α} {g : FieldReader β}

lemma required_ofEntries [Readable α] {name : String} {entries : List (String × Json)} {x : α} :
    (required name : FieldReader α).ofEntries entries = .ok x ↔
      ∃ v, entries.lookup name = some v ∧ Readable.read v = .ok x := by
  cases h : entries.lookup name <;> simp [required, field, h]

lemma required_ofItems [Readable α] {name : String} {items rest : List Json} {x : α} :
    (required name : FieldReader α).ofItems items = .ok (x, rest) ↔
      ∃ v, items = v :: rest ∧ Readable.read v = .ok x := by
  cases items with
  | nil => simp [required, field]
  | cons v items =>
    cases h : (Readable.read v : Except ReadError α) with
    | error e => simp [required, field, h]
    | ok y => simp [required, field, h, and_comm]

lemma field_ofEntries {name : String} {reader : Json → Except ReadError α} {default : Option α}
    {entries entries' : List (String × Json)} (h : entries'.lookup name = entries.lookup name) :
    (field name reader default).ofEntries entries' =
      (field name reader default).ofEntries entries := by
  simp only [field, h]

lemma optional_ofItems_cons {name : String} {reader : Json → Except ReadError α} {default : α}
    {v : Json} {items rest : List Json} {x : α} :
    (optional name reader default).ofItems (v :: items) = .ok (x, rest) ↔
      items = rest ∧ reader v = .ok x := by
  cases h : reader v <;> simp [optional, field, h, and_comm]

lemma and_ofEntries {entries : List (String × Json)} {x : α} {y : β} :
    (f.and g).ofEntries entries = .ok (x, y) ↔
      f.ofEntries entries = .ok x ∧ g.ofEntries entries = .ok y := by
  simp only [FieldReader.and, bind_eq_ok]
  simp [pure, Except.pure]

lemma and_ofItems {items rest : List Json} {x : α} {y : β} :
    (f.and g).ofItems items = .ok ((x, y), rest) ↔
      ∃ middle, f.ofItems items = .ok (x, middle) ∧ g.ofItems middle = .ok (y, rest) := by
  simp only [FieldReader.and, bind_eq_ok]
  simp [pure, Except.pure]

def Heeds (f : FieldReader α) : Prop :=
  ∀ entries x, f.ofEntries entries = .ok x → ∀ name v fault,
    entries.lookup name = some v → f.faults.lookup name = some fault → fault v = none

lemma heeds_field (name : String) (reader : Json → Except ReadError α) (default : Option α) :
    (field name reader default).Heeds := by
  intro entries x hx n v fault hv hf
  obtain ⟨rfl, rfl⟩ : n = name ∧ fault = fault? reader := by
    have hm := mem_of_lookup hf
    simpa [field] using hm
  simp only [field, hv] at hx
  rw [fault?, hx]

lemma heeds_required [Readable α] (name : String) : (required name : FieldReader α).Heeds :=
  heeds_field name Readable.read none

lemma Heeds.and (hf : f.Heeds) (hg : g.Heeds) : (f.and g).Heeds := by
  rintro entries ⟨x, y⟩ hx name v fault hv hl
  obtain ⟨hx, hy⟩ := and_ofEntries.1 hx
  rw [FieldReader.and, List.lookup_append, Option.or_eq_some_iff] at hl
  rcases hl with hl | ⟨_, hl⟩
  · exact hf entries x hx name v fault hv hl
  · exact hg entries y hy name v fault hv hl

lemma fault?_eq_none {reader : Json → Except ReadError α} {v : Json} :
    fault? reader v = none ↔ ∃ x, reader v = .ok x := by
  cases h : reader v <;> simp [fault?, h]

lemma firstFault?_eq_none {entries : List (String × Json)} : f.firstFault? entries = none ↔
    ∀ x ∈ entries, (f.faults.lookup x.1).bind (· x.2) = none :=
  List.findSome?_eq_none_iff

lemma read_object_eq_ok {record : String} {entries : List (String × Json)} {x : α} :
    f.read record (.object entries) = .ok x ↔
      f.firstFault? entries = none ∧ f.ofEntries entries = .ok x := by
  rw [FieldReader.read]
  cases f.firstFault? entries <;> simp

lemma read_object (hf : f.Heeds) {entries : List (String × Json)}
    (hn : (entries.map Prod.fst).Nodup) (record : String) (x : α) :
    f.read record (.object entries) = .ok x ↔ f.ofEntries entries = .ok x := by
  refine read_object_eq_ok.trans (and_iff_right_of_imp fun hx => ?_)
  apply firstFault?_eq_none.2
  intro y hy
  cases hl : f.faults.lookup y.1 with
  | none => rfl
  | some fault => exact hf entries x hx y.1 y.2 fault (lookup_of_mem hn hy) hl

lemma read_array (record : String) (items : List Json) (x : α) :
    f.read record (.array items) = .ok x ↔ f.ofItems items = .ok (x, []) := by
  rw [FieldReader.read]
  cases h : f.ofItems items with
  | error e => cases e <;> simp
  | ok y =>
    obtain ⟨y, rest⟩ := y
    cases rest <;> simp

end FieldReader

namespace Json

def slot? (v : Json) (name : String) (place : Nat) : Option Json :=
  match v with
  | .object entries => entries.lookup name
  | .array items => items[place]?
  | _ => none

def IsRecord (least most : Nat) : Json → Prop
  | .object _ => True
  | .array items => least ≤ items.length ∧ items.length ≤ most
  | _ => False

lemma isRecord_of_slot? {v x : Json} {name : String} {i n : Nat} (h : v.slot? name i = some x) :
    v.IsRecord 0 n ↔ v.IsRecord (i + 1) n := by
  cases v with
  | array items =>
    obtain ⟨hi, -⟩ := List.getElem?_eq_some_iff.1 h
    exact and_congr_left' (iff_of_true (Nat.zero_le _) hi)
  | object entries => exact Iff.rfl
  | _ => exact absurd h nofun

lemma WellFormed.of_slot? {v x : Json} {name : String} {i : Nat} (hv : v.WellFormed)
    (h : v.slot? name i = some x) : x.WellFormed := by
  cases v with
  | array items => exact wellFormed_array.1 hv x (List.mem_of_getElem? h)
  | object entries => exact (wellFormed_object.1 hv).2 _ (mem_of_lookup h)
  | _ => exact absurd h nofun

end Json

namespace FieldReader

variable {f : FieldReader α} {g : FieldReader β}

def Given (reader : Json → Except ReadError α) (default : Option α) : Option Json → α → Prop
  | some v, x => reader v = .ok x
  | none, x => default = some x

section Given

variable {reader : Json → Except ReadError α} {o : Option Json} {x : α}

lemma given_required : Given reader none o x ↔ ∃ v, o = some v ∧ reader v = .ok x := by
  cases o <;> simp [Given]

lemma given_optional {default : α} {v : Json} (hv : reader v = .ok default) :
    Given reader (some default) o x ↔ reader (o.getD v) = .ok x := by
  cases o <;> simp [Given, hv]

end Given

structure Reads (f : FieldReader α) (i j : Nat)
    (P : (String → Nat → Option Json) → α → Prop) : Prop where
  heeds : f.Heeds
  entries (entries : List (String × Json)) (x : α) :
    f.ofEntries entries = .ok x ↔ P (fun name _ => entries.lookup name) x
  items (items : List Json) (x : α) (rest : List Json) :
    f.ofItems (items.drop i) = .ok (x, rest) ↔
      rest = items.drop j ∧ P (fun _ place => items[place]?) x

lemma reads_field (name : String) (reader : Json → Except ReadError α) (default : Option α)
    (i : Nat) : (field name reader default).Reads i (i + 1)
      fun slot => Given reader default (slot name i) where
  heeds := heeds_field name reader default
  entries entries x := by
    cases h : entries.lookup name <;> cases default <;> simp [field, Given, h]
  items items x rest := by
    change _ ↔ _ ∧ Given reader default items[i]? x
    rw [← List.head?_drop, ← List.tail_drop]
    cases items.drop i with
    | nil => cases default <;> simp [field, Given, and_comm, eq_comm]
    | cons v items => cases h : reader v <;> simp [field, Given, h, and_comm, eq_comm]

lemma Reads.and {i j k : Nat} {P : (String → Nat → Option Json) → α → Prop}
    {Q : (String → Nat → Option Json) → β → Prop} (hf : f.Reads i j P) (hg : g.Reads j k Q) :
    (f.and g).Reads i k fun slot x => P slot x.1 ∧ Q slot x.2 where
  heeds := hf.heeds.and hg.heeds
  entries entries _ := and_ofEntries.trans (and_congr (hf.entries _ _) (hg.entries _ _))
  items items x rest := by
    refine and_ofItems.trans ⟨?_, ?_⟩
    · rintro ⟨middle, hx, hy⟩
      obtain ⟨rfl, hp⟩ := (hf.items _ _ _).1 hx
      obtain ⟨rfl, hq⟩ := (hg.items _ _ _).1 hy
      exact ⟨rfl, hp, hq⟩
    · rintro ⟨rfl, hp, hq⟩
      exact ⟨_, (hf.items _ _ _).2 ⟨rfl, hp⟩, (hg.items _ _ _).2 ⟨rfl, hq⟩⟩

lemma Reads.read_eq_ok {n : Nat} {P : (String → Nat → Option Json) → α → Prop}
    (hf : f.Reads 0 n P) {v : Json} (hv : v.WellFormed) (record : String) (x : α) :
    f.read record v = .ok x ↔ v.IsRecord 0 n ∧ P v.slot? x := by
  cases v with
  | object entries =>
    refine (read_object hf.heeds (Json.wellFormed_object.1 hv).1 record x).trans ?_
    exact (hf.entries entries x).trans (true_and _).symm.to_iff
  | array items =>
    refine (read_array record items x).trans ((hf.items items x []).trans ?_)
    refine and_congr_left' (eq_comm.trans (List.drop_eq_nil_iff.trans ?_))
    exact (and_iff_right (Nat.zero_le _)).symm
  | _ => exact iff_of_false nofun fun h => h.1

end FieldReader

end Intake
