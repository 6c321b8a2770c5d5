import Intake.Check
import Mathlib.Logic.Basic
import Mathlib.Tactic.Choose

namespace Intake

variable {m : Type → Type} [Monad m] [LawfulMonad m] {α β γ ρ ω : Type}

lemma mapM_congr {xs : List α} {f g : α → m β} (h : ∀ x ∈ xs, f x = g x) :
    xs.mapM f = xs.mapM g := by
  have hf : xs.mapM f = (xs.map f).mapM id := by simp
  have hg : xs.mapM g = (xs.map g).mapM id := by simp
  rw [hf, hg, List.map_congr_left h]

lemma mapM_functor_map (xs : List α) (f : α → m β) (g : β → γ) :
    (xs.mapM fun x => g <$> f x) = List.map g <$> xs.mapM f := by
  induction xs with
  | nil => simp
  | cons x rest ih => simp [ih]

lemma mapM_flatMap (xs : List α) (block : α → List β) (f : β → m γ) :
    (xs.flatMap block).mapM f = List.flatten <$> xs.mapM fun x => (block x).mapM f := by
  induction xs with
  | nil => simp
  | cons x rest ih => simp [ih]

lemma mapM_build_bind (build : α → β → ρ) (out : ρ → β) (view : ρ → ω) (known : α → ω)
    (ho : ∀ x y, out (build x y) = y) (hv : ∀ x y, view (build x y) = known x)
    (xs : List α) (f : α → m β) (next : List β → List ω → m γ) :
    (do let parts ← xs.mapM fun x => build x <$> f x
        next (parts.map out) (parts.map view)) =
      (do let found ← xs.mapM f
          next found (xs.map known)) := by
  induction xs generalizing next with
  | nil => simp
  | cons x rest ih =>
    have hr (y : β) := ih fun found values => next (y :: found) (known x :: values)
    simp only [List.mapM_cons, bind_assoc, pure_bind, bind_map_left, List.map_cons, ho, hv] at hr ⊢
    exact bind_congr hr

def Yields (P : α → Prop) (x : m α) : Prop := ∃ y : m {a // P a}, Subtype.val <$> y = x

lemma yields_pure {P : α → Prop} {a : α} (h : P a) : Yields P (pure a : m α) :=
  ⟨pure ⟨a, h⟩, map_pure _ _⟩

lemma yields_map {P : β → Prop} {f : α → β} (h : ∀ a, P (f a)) (x : m α) : Yields P (f <$> x) :=
  ⟨(fun a => ⟨f a, h a⟩) <$> x, by rw [Functor.map_map]⟩

lemma Yields.bind {P : α → Prop} {Q : β → Prop} {x : m α} {f : α → m β} (hx : Yields P x)
    (hf : ∀ a, P a → Yields Q (f a)) : Yields Q (x >>= f) := by
  obtain ⟨y, rfl⟩ := hx
  choose z hz using fun a : {a // P a} => hf a.1 a.2
  refine ⟨y >>= z, ?_⟩
  rw [map_bind, bind_map_left]
  exact bind_congr hz

lemma Yields.mono {P Q : α → Prop} {x : m α} (hx : Yields P x) (h : ∀ a, P a → Q a) :
    Yields Q x := by
  obtain ⟨y, rfl⟩ := hx
  exact yields_map (f := Subtype.val) (fun a => h a.1 a.2) y

lemma Yields.run {P : α → Prop} {x : Id α} (hx : Yields P x) : P x := by
  obtain ⟨y, rfl⟩ := hx
  exact y.2

namespace Outcome

def join (os : List Outcome) : Outcome := ⟨os.flatMap errors, os.flatMap successes⟩

@[simp] lemma errors_join (os : List Outcome) : (join os).errors = os.flatMap errors := rfl

@[simp] lemma successes_join (os : List Outcome) : (join os).successes = os.flatMap successes := rfl

lemma append_assoc (a b c : Outcome) : a ++ b ++ c = a ++ (b ++ c) :=
  congrArg₂ Outcome.mk (List.append_assoc ..) (List.append_assoc ..)

@[simp] lemma pass_append (o : Outcome) : pass ++ o = o := rfl

@[simp] lemma append_pass (o : Outcome) : o ++ pass = o :=
  congrArg₂ Outcome.mk (List.append_nil _) (List.append_nil _)

@[simp] lemma join_nil : join [] = pass := rfl

@[simp] lemma join_cons (o : Outcome) (os : List Outcome) : join (o :: os) = o ++ join os := rfl

@[simp] lemma join_append (os os' : List Outcome) : join (os ++ os') = join os ++ join os' := by
  induction os with
  | nil => rfl
  | cons o rest ih => rw [List.cons_append, join_cons, join_cons, ih, append_assoc]

lemma join_flatten (oss : List (List Outcome)) : join oss.flatten = join (oss.map join) := by
  induction oss with
  | nil => rfl
  | cons os rest ih => rw [List.flatten_cons, join_append, ih, List.map_cons, join_cons]

end Outcome

lemma Registration.runAll_eq (rs : List (Registration m)) (v : Json) (path : Path) :
    runAll rs v path = Outcome.join <$> rs.mapM fun r => r.run v path := by
  induction rs with
  | nil => simp [runAll]
  | cons r rest ih => simp [runAll, ih]

lemma Registration.runAll_single (r : Registration m) {v : Json} {path : Path} {o : Outcome}
    (h : r.check.run v path = pure o) : runAll [r] v path = pure (r.present o) := by
  have hr : r.run v path = pure (r.present o) := by rw [run, h, map_pure]
  simp [runAll, hr]

lemma Registration.runAll_append {rs rs' : List (Registration m)} {v : Json} {path : Path}
    {o o' : Outcome} (h : runAll rs v path = pure o) (h' : runAll rs' v path = pure o') :
    runAll (rs ++ rs') v path = pure (o ++ o') := by
  have ha : runAll (rs ++ rs') v path =
      (do return (← runAll rs v path) ++ (← runAll rs' v path)) := by simp [runAll_eq]
  rw [ha, h, h', pure_bind, pure_bind]

end Intake
