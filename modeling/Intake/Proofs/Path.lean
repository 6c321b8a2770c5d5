import Intake.Path
import Std.Data.String.ToNat
import Mathlib.Data.List.Basic
import Mathlib.Tactic.Lemma

namespace Intake

namespace Segment

lemma toList_text_index (i : Nat) : (index i).text.toList = Nat.toDigits 10 i :=
  String.toList_ofList

lemma isDigit_of_mem_text_index {i : Nat} {c : Char} (h : c ∈ (index i).text.toList) :
    c.isDigit = true := by
  rw [toList_text_index] at h
  exact Nat.isDigit_of_mem_toDigits (by decide) (by decide) h

lemma text_index_injective {i j : Nat} (h : (index i).text = (index j).text) : i = j :=
  Nat.repr_injective h

end Segment

namespace Path

def Undotted (p : Path) : Prop := ∀ t ∈ p.texts, '.' ∉ t.toList

instance (p : Path) : Decidable p.Undotted :=
  inferInstanceAs (Decidable (∀ t ∈ p.texts, '.' ∉ t.toList))

lemma isRoot_iff {p : Path} : p.isRoot = true ↔ p = root := by
  obtain ⟨segments⟩ := p
  simp [isRoot, root]

lemma texts_eq_nil {p : Path} : p.texts = [] ↔ p = root := by
  obtain ⟨segments⟩ := p
  simp [texts, root]

lemma texts_append (p q : Path) : (p ++ q).texts = p.texts ++ q.texts := List.map_append

lemma splitOn_dotted {p : Path} (hp : p.Undotted) (hr : p ≠ root) :
    p.dotted.toList.splitOn '.' = p.texts.map String.toList := by
  have hn : p.texts.map String.toList ≠ [] := by
    simpa [List.map_eq_nil_iff] using fun h => hr (texts_eq_nil.1 h)
  rw [dotted, String.toList_intercalate]
  apply List.splitOn_intercalate '.' _ hn
  simpa [Undotted] using hp

lemma texts_eq_of_dotted_eq {p q : Path} (hp : p.Undotted) (hq : q.Undotted) (hpr : p ≠ root)
    (hqr : q ≠ root) (h : p.dotted = q.dotted) : p.texts = q.texts := by
  have hs := splitOn_dotted hp hpr
  rw [h, splitOn_dotted hq hqr] at hs
  exact ((List.map_inj_right fun _ _ => String.toList_inj.1).1 hs).symm

end Path

end Intake
