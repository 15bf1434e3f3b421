/-
Vectors of marks: the flags that a traversal keeps for the indices below `n`,
as the characteristic function of a set of indices.

* `marks_set`, `marks_getD`: setting and reading a mark;
* `replicate_eq_marks`, `marks_resize`: a fresh vector and a longer one.
-/
import Mathlib

namespace Foundations

/-- The marks `s 0, …, s (n - 1)`. -/
def marks (n : ℕ) (s : ℕ → Bool) : List Bool := (List.range n).map s

variable {n n' : ℕ} {s t : ℕ → Bool}

@[simp] lemma marks_length : (marks n s).length = n := by simp [marks]

lemma marks_getElem? {i : ℕ} (h : i < n) : (marks n s)[i]? = some (s i) := by
  simp [marks, h]

lemma marks_getD {i : ℕ} (h : i < n) (d : Bool) : (marks n s).getD i d = s i := by
  rw [List.getD_eq_getElem?_getD, marks_getElem? h, Option.getD_some]

lemma marks_congr (h : ∀ i < n, s i = t i) : marks n s = marks n t :=
  List.map_congr_left fun i hi => h i (List.mem_range.mp hi)

lemma marks_set (i : ℕ) (b : Bool) : (marks n s).set i b = marks n (Function.update s i b) := by
  refine List.ext_getElem (by simp) fun j h1 h2 => ?_
  have hj : j < n := by simpa using h2
  rw [List.getElem_set]
  simp only [marks, List.getElem_map, List.getElem_range, Function.update_apply, eq_comm]

lemma replicate_eq_marks (n : ℕ) : List.replicate n false = marks n fun _ => false := by
  simp [marks]

/-- New marks at the end are unset. -/
lemma marks_resize (hle : n ≤ n') (h : ∀ i, n ≤ i → s i = false) :
    marks n s ++ List.replicate (n' - n) false = marks n' s := by
  obtain ⟨k, rfl⟩ := Nat.exists_eq_add_of_le hle
  rw [Nat.add_sub_cancel_left, marks, marks, List.range_add, List.map_append, List.map_map,
    List.append_cancel_left_eq]
  refine (List.eq_replicate_iff.mpr ⟨by simp, fun b hb => ?_⟩).symm
  obtain ⟨i, -, rfl⟩ := List.mem_map.mp hb
  exact h _ (Nat.le_add_right n i)

end Foundations
