import Intake.Proofs.Schema.Bounds
import Intake.Proofs.Schema.TypedReading
import Mathlib.Data.Set.List

namespace Intake

lemma map_number_injective : Function.Injective (List.map Json.number) :=
  List.map_injective_iff.2 fun _ _ => Json.number.inj

namespace Whole

lemma toInt64?_eq_some {n : Whole} {x : Int64} : n.toInt64? = some x ↔ n = .ofInt64 x := by
  obtain ⟨val, lower, upper⟩ := n
  simp only [toInt64?, ofInt64, Whole.mk.injEq]
  constructor
  · intro h
    obtain ⟨hn, hx⟩ := Option.ite_none_right_eq_some.1 h
    rw [← Option.some.inj hx, Int64.toInt_ofInt_of_le lower hn]
  · rintro rfl
    exact (if_pos x.toInt_lt).trans (congrArg some x.ofInt_toInt)

lemma exists_ofInt64 {n : Whole} (h : n.val < 2 ^ 63) : ∃ x, n = .ofInt64 x :=
  ⟨_, toInt64?_eq_some.1 (if_pos h)⟩

lemma val_lt_of_accepts {n : Whole} {b : Binary64} (hb : b.value ≤ 2 ^ 53)
    (h : (Constraint.maximum (.finite b)).accepts (.number (.whole n)) = true) :
    n.val < 2 ^ 63 := by
  by_contra hn
  obtain ⟨y, hy⟩ : ∃ y : Binary64, y.value = (2 ^ 63 : Int) :=
    Binary64.exists_value (c := 1) (k := 63) rfl (by decide) (by decide)
  have hx : y.value ≤ n.toBinary64.value :=
    n.nearest_toBinary64.ge_of_ge (hy ▸ Int.cast_le.2 (not_lt.1 hn))
  have hr : b.value < n.toBinary64.value := by
    rw [hy] at hx
    norm_num at hx
    linarith
  have hf := (Constraint.maximum_accepts_whole n b).2 (n.nearest_toBinary64.gt_iff.1 hr)
  rw [h] at hf
  cases hf

end Whole

lemma read_int64_eq_ok (v : Json) (x : Int64) :
    (read v : Except ReadError Int64) = .ok x ↔ v = .number (.whole (.ofInt64 x)) := by
  refine readWhole_eq_ok.trans ?_
  simp only [Whole.toInt64?_eq_some, exists_eq_right]

lemma readAll_int64_eq_ok {vs : List Json} {xs : List Int64} :
    readAll vs = .ok xs ↔ vs = xs.map fun x => .number (.whole (.ofInt64 x)) := by
  rw [readAll_eq_ok]
  simp only [read_int64_eq_ok]
  rw [← List.forall₂_map_right_iff (R := Eq), List.forall₂_eq_eq_eq]

variable {m : Type → Type}

namespace Schema

variable [Monad m] [LawfulMonad m]

lemma validateAt_arrayOf {items : Schema m} {report : Json → Path → Report}
    (hr : ∀ x path, items.validateAt (some x) path = pure (report x path)) (xs : List Json)
    (path : Path) : (arrayOf items).validateAt (some (.array xs)) path =
      let parts := xs.zipIdx.map fun x => report x.1 (path.index x.2)
      pure (.ofOutcome (.join (parts.map Report.toOutcome)) (some (assembleArray parts))) := by
  rw [arrayOf, validateAt, Base.enter, Base.admission_some_array]
  simp only [hr, List.mapM_pure, pure_bind, Base.conclude_eq, Base.conclusion, Base.empty,
    Json.items, List.mapM_nil, map_pure, Outcome.join_nil, Outcome.append_pass]

lemma exists_validateAt_arrayOf {items : Schema m} {P : Json → Prop}
    (hi : ∀ x path, ∃ r : Report, items.validateAt (some x) path = pure r ∧ r.value = some x ∧
      (r.isValid = true ↔ P x)) (v : Option Json) (path : Path) :
    ∃ r : Report, (arrayOf items).validateAt v path = pure r ∧ r.value = v ∧
      (r.isValid = true ↔ ∃ xs, v = some (.array xs) ∧ ∀ x ∈ xs, P x) := by
  cases ha : (Base.empty (m := m)).admission .array v with
  | exempt => simp [Base.admission_eq_exempt, Base.empty] at ha
  | refused why =>
    refine ⟨_, validateAt_refused (s := arrayOf items) path ha, rfl,
      iff_of_false Bool.false_ne_true ?_⟩
    rintro ⟨xs, rfl, -⟩
    rw [Base.admission_some_array] at ha
    cases ha
  | admitted w =>
    obtain ⟨rfl, xs, rfl⟩ := Base.admission_array ha
    choose report hr hv hp using hi
    have he : xs.zipIdx.map Prod.fst = xs := List.zipIdx_map_fst ..
    refine ⟨_, validateAt_arrayOf hr xs path, ?_, ?_⟩
    · simp only [Report.value_ofOutcome, assembleArray, List.map_map, Function.comp_def, hv,
        Option.getD_some, he]
    · have hz : (∀ x ∈ xs.zipIdx, P x.1) ↔ ∀ x ∈ xs, P x := by
        rw [← List.forall_mem_map (f := Prod.fst), he]
      rw [Report.isValid_iff, Report.toOutcome_ofOutcome, Outcome.errors_join,
        List.flatMap_eq_nil_iff]
      simp only [List.forall_mem_map, ← Report.isValid_iff, hp, hz, Option.some.injEq,
        Json.array.injEq, exists_eq_left']

def wholeBetween (a b : Binary64) : Schema m :=
  ((number.limit .integer).limit (.minimum (.finite a))).limit (.maximum (.finite b))

lemma exists_validateAt_wholeBetween (a b : Binary64) (v : Json) (path : Path) :
    ∃ r : Report, (wholeBetween a b : Schema m).validateAt (some v) path = pure r ∧
      r.value = some v ∧ (r.isValid = true ↔ (∃ n, v = .number n) ∧
        Constraint.integer.accepts v = true ∧ (Constraint.minimum (.finite a)).accepts v = true ∧
        (Constraint.maximum (.finite b)).accepts v = true) := by
  let steps : List (Step m) :=
    [.limit .integer, .limit (.minimum (.finite a)), .limit (.maximum (.finite b))]
  have hs : ∀ step ∈ steps, step.OnlyLimits (.scalar .number) := by
    simp [steps, Step.OnlyLimits, Constraint.kind]
  obtain ⟨r, hr, hv, hi⟩ := exists_validateAt_limits hs (some v) path
  refine ⟨r, hr, hv, hi.trans (Base.allows_mandatory.trans ?_)⟩
  constructor
  · rintro ⟨_, hw, -, -, hd, hc⟩
    cases hw
    exact ⟨hd, by simpa [steps] using hc⟩
  · rintro ⟨⟨n, rfl⟩, hc⟩
    exact ⟨_, rfl, by simp, by simp, ⟨n, rfl⟩, by simpa [steps] using hc⟩

/-- An array of numbers that is let in is read as integers exactly if none of the numbers is a
double, even one without a fraction. -/
theorem wholeBetween_reads (a : Binary64) {b : Binary64} (hb : b.value ≤ 2 ^ 53) (v : Option Json)
    (path : Path) :
    ∃ r : Report, (arrayOf (wholeBetween a b) : Schema m).validateAt v path = pure r ∧
      (r.isValid = true → ∃ ns : List Number, v = some (.array (ns.map .number)) ∧
        ((∃ xs : List Int64, r.readValue = .ok xs) ↔ ∀ n ∈ ns, ∃ k, n = .whole k) ∧
        ∀ xs : List Int64, r.readValue = .ok xs →
          xs.map (fun x => (x.toInt : ℚ)) = ns.map Number.value) := by
  obtain ⟨r, hr, hv, hi⟩ := exists_validateAt_arrayOf
    (exists_validateAt_wholeBetween (m := m) a b) v path
  refine ⟨r, hr, fun h => ?_⟩
  obtain ⟨vs, rfl, hvs⟩ := hi.1 h
  obtain ⟨ns, rfl⟩ : vs ∈ Set.range (List.map Json.number) := by
    rw [Set.range_list_map]
    exact fun x hx => (hvs x hx).1.imp fun n hn => hn.symm
  have hread (xs : List Int64) :
      r.readValue = .ok xs ↔ ns = xs.map fun x => .whole (.ofInt64 x) := by
    rw [Report.readValue, hv]
    refine readAll_int64_eq_ok.trans ?_
    rw [← map_number_injective.eq_iff, List.map_map]
    rfl
  refine ⟨ns, rfl, ⟨?_, fun hw => ?_⟩, fun xs hx => ?_⟩
  · rintro ⟨xs, hx⟩ n hn
    rw [(hread xs).1 hx] at hn
    obtain ⟨x, -, rfl⟩ := List.mem_map.1 hn
    exact ⟨_, rfl⟩
  · have hn : ns ∈ Set.range (List.map fun x : Int64 => Number.whole (.ofInt64 x)) := by
      rw [Set.range_list_map]
      intro n hn
      obtain ⟨k, rfl⟩ := hw n hn
      obtain ⟨-, -, -, hm⟩ := hvs _ (List.mem_map_of_mem hn)
      obtain ⟨x, hx⟩ := Whole.exists_ofInt64 (Whole.val_lt_of_accepts hb hm)
      exact ⟨x, congrArg Number.whole hx.symm⟩
    obtain ⟨xs, hx⟩ := hn
    exact ⟨xs, (hread xs).2 hx.symm⟩
  · rw [(hread xs).1 hx, List.map_map]
    rfl

theorem wholeBetween_reads_counts :
    let ten := (Whole.ofUInt64 10).toBinary64
    let s : Schema Id := arrayOf (wholeBetween (Whole.ofInt64 (-5)).toBinary64 ten)
    let counts : List Number := [.whole (.ofUInt64 3), .whole (.ofInt64 (-2))]
    LawfulMonad Id ∧ ten.value ≤ 2 ^ 53 ∧
      ∃ r : Report, s.validateAt (some (.array (counts.map .number))) .root = r ∧
        r.isValid = true ∧
        ∃ xs : List Int64, r.readValue = .ok xs ∧
          xs.map (fun x => (x.toInt : ℚ)) = counts.map Number.value := by
  intro ten s counts
  have hb : ten.value ≤ 2 ^ 53 := by
    rw [(Whole.ofUInt64 10).value_toBinary64 (by decide)]
    change ((10 : ℤ) : ℚ) ≤ 2 ^ 53
    norm_num
  obtain ⟨r, hr, h⟩ := wholeBetween_reads (m := Id) (Whole.ofInt64 (-5)).toBinary64 hb
    (some (.array (counts.map .number))) .root
  have hi : r.isValid = true := by
    change _ = r at hr
    rw [← hr]
    decide +kernel
  obtain ⟨ns, hn, hw, hx⟩ := h hi
  obtain rfl : counts = ns := map_number_injective (Json.array.inj (Option.some.inj hn))
  obtain ⟨xs, hr'⟩ := hw.2 (by simp [counts])
  exact ⟨inferInstance, hb, r, hr, hi, xs, hr', hx xs hr'⟩

theorem not_wholeBetween_reads :
    ¬ ∀ a b : Binary64, -2 ^ 53 ≤ a.value → b.value ≤ 2 ^ 53 → ∀ v : Json,
      let r : Report := (arrayOf (wholeBetween a b) : Schema Id).validateAt (some v) .root
      r.isValid = true → ∃ (ns : List Number) (xs : List Int64), v = .array (ns.map .number) ∧
        r.readValue = .ok xs ∧ xs.map (fun x => (x.toInt : ℚ)) = ns.map Number.value := by
  intro h
  let one := (Whole.ofUInt64 1).toBinary64
  have ho : one.value = 1 := by
    rw [(Whole.ofUInt64 1).value_toBinary64 (by decide)]
    rfl
  obtain ⟨-, xs, -, hr, -⟩ := h one one (by rw [ho]; norm_num) (by rw [ho]; norm_num)
    (.array [.number (.double one)]) (by decide +kernel)
  cases hr

end Schema

end Intake
