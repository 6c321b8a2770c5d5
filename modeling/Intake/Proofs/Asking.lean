import Intake.Proofs.Sequencing

namespace Intake

namespace Asking

variable {α β : Type}

def Gives (x : Asking α) (y : α) (asked : List Json) : Prop :=
  ∀ log, x.run log = (y, log ++ asked)

lemma gives_pure (y : α) : Gives (pure y) y [] := by
  intro log
  exact congrArg (Prod.mk y) (List.append_nil log).symm

lemma gives_noting (ask : Json → Answer) (v : Json) : Gives (noting ask v) (ask v) [v] :=
  fun _ => rfl

lemma Gives.bind {x : Asking α} {f : α → Asking β} {y : α} {z : β} {asked asked' : List Json}
    (hx : Gives x y asked) (hf : Gives (f y) z asked') : Gives (x >>= f) z (asked ++ asked') := by
  intro log
  have hb : (x >>= f).run log = (f (x.run log).1).run (x.run log).2 := rfl
  rw [hb, hx log, hf, List.append_assoc]

lemma Gives.map {x : Asking α} {y : α} {asked : List Json} (hx : Gives x y asked) (f : α → β) :
    Gives (f <$> x) (f y) asked := by
  intro log
  have hm : (f <$> x).run log = (f (x.run log).1, (x.run log).2) := rfl
  rw [hm, hx log]

lemma Gives.mapM {xs : List α} {f : α → Asking β} {g : α → Id β} {asked : α → List Json}
    (h : ∀ x ∈ xs, Gives (f x) (g x) (asked x)) :
    Gives (xs.mapM f) (Id.run (xs.mapM g)) (xs.flatMap asked) := by
  induction xs with
  | nil => exact gives_pure []
  | cons x rest ih =>
    have hr := ih fun y hy => h y (List.mem_cons_of_mem _ hy)
    rw [List.idRun_mapM] at hr ⊢
    rw [List.mapM_cons, List.flatMap_cons, List.map_cons]
    apply (h x List.mem_cons_self).bind
    rw [bind_pure_comp]
    exact hr.map _

end Asking

open Asking

variable {m : Type → Type}

namespace Check

def noted : Check Id → Check Asking
  | limit c => limit c
  | emailAddress => emailAddress
  | remote ask => remote (noting ask)
  | custom run => custom fun v path => pure (run v path)

def asks : Check m → Bool
  | remote _ => true
  | _ => false

lemma gives_noted (c : Check Id) (v : Json) (path : Path) :
    Gives (c.noted.run v path) (c.run v path) (if c.asks then [v] else []) := by
  cases c with
  | limit c => exact gives_pure _
  | emailAddress => exact gives_pure _
  | remote ask => exact (gives_noting ask v).map fun a => a.outcome path
  | custom run => exact gives_pure _

end Check

namespace Registration

def noted (r : Registration Id) : Registration Asking :=
  ⟨r.identifier, r.check.noted, r.message, r.rule⟩

lemma gives_noted (r : Registration Id) (v : Json) (path : Path) :
    Gives (r.noted.run v path) (r.run v path) (if r.check.asks then [v] else []) :=
  (r.check.gives_noted v path).map r.present

lemma gives_runAll (rs : List (Registration Id)) (v : Json) (path : Path) :
    Gives (runAll (rs.map noted) v path) (runAll rs v path)
      (List.replicate (rs.countP (·.check.asks)) v) := by
  induction rs with
  | nil => exact gives_pure _
  | cons r rest ih =>
    have hl : List.replicate ((r :: rest).countP (·.check.asks)) v =
        (if r.check.asks then [v] else []) ++ List.replicate (rest.countP (·.check.asks)) v := by
      rw [List.countP_cons]
      split <;> simp [List.replicate_succ]
    rw [hl, List.map_cons, runAll]
    apply (r.gives_noted v path).bind
    rw [bind_pure_comp]
    exact ih.map _

end Registration

end Intake
