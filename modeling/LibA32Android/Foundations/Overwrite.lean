/-
Finite windows of a function on the naturals, and writing a list over one.

A store indexed by addresses is a function `f : ℕ → β`; reading `n` cells from
`a` on is `window f a n`, writing the list `l` from `a` on is
`overwrite f a l`.

* `overwrite_of_outside`, `overwrite_apply_add`: what a write leaves and what
  it puts;
* `window_overwrite_self`: reading back what was written;
* `overwriteAll`: a list of writes, with what it leaves and, for disjoint
  writes, what it puts, in any order;
* `fill f a n v`: the constant write.
-/
import Mathlib

namespace Foundations

variable {β : Type} {f g : ℕ → β} {a b x n : ℕ} {l : List β}

/-- The list of the `n` values of `f` from `a` on. -/
def window (f : ℕ → β) (a n : ℕ) : List β := (List.range n).map fun i => f (a + i)

/-- The function `f` with the list `l` written from `a` on. -/
def overwrite (f : ℕ → β) (a : ℕ) (l : List β) : ℕ → β :=
  fun x => if a ≤ x then (l[x - a]?).getD (f x) else f x

@[simp] lemma window_length : (window f a n).length = n := by simp [window]

@[simp] lemma window_zero : window f a 0 = [] := rfl

lemma getElem?_window {i : ℕ} (hi : i < n) : (window f a n)[i]? = some (f (a + i)) := by
  simp [window, hi]

/-- Windows depend on the cells they cover. -/
lemma window_congr (h : ∀ x, a ≤ x → x < a + n → f x = g x) : window f a n = window g a n := by
  unfold window
  refine List.map_congr_left fun i hi => ?_
  rw [List.mem_range] at hi
  exact h (a + i) (by omega) (by omega)

/-- Equal windows agree cell by cell. -/
lemma eq_of_window_eq (h : window f a n = window g a n) (hax : a ≤ x) (hxn : x < a + n) :
    f x = g x := by
  have hi : x - a < n := by omega
  have h1 := getElem?_window (f := f) (a := a) hi
  rw [h, getElem?_window hi, show a + (x - a) = x by omega] at h1
  exact (Option.some.inj h1).symm

/-- A window of two parts. -/
lemma window_add (m : ℕ) : window f a (m + n) = window f a m ++ window f (a + m) n := by
  unfold window
  rw [List.range_add, List.map_append, List.map_map]
  congr 1
  exact List.map_congr_left fun i _ => by simp [Nat.add_assoc]

/-- A write leaves every cell outside the written range. -/
lemma overwrite_of_outside (h : x < a ∨ a + l.length ≤ x) : overwrite f a l x = f x := by
  unfold overwrite
  split
  · rw [List.getElem?_eq_none (by omega)]
    rfl
  · rfl

/-- A write puts the list into the written range. -/
lemma overwrite_apply_add {i : ℕ} (hi : i < l.length) : overwrite f a l (a + i) = l[i] := by
  unfold overwrite
  rw [if_pos (Nat.le_add_right a i), Nat.add_sub_cancel_left, List.getElem?_eq_getElem hi]
  rfl

@[simp] lemma overwrite_nil : overwrite f a [] = f :=
  funext fun _ => overwrite_of_outside (by simp; omega)

/-- Inside the written range the old function plays no role. -/
lemma overwrite_congr (hax : a ≤ x) (hxl : x < a + l.length) :
    overwrite f a l x = overwrite g a l x := by
  rw [show x = a + (x - a) by omega, overwrite_apply_add (by omega),
    overwrite_apply_add (by omega)]

/-- Reading back a written list. -/
lemma window_overwrite_self : window (overwrite f a l) a l.length = l := by
  refine List.ext_getElem (by simp) fun i h1 h2 => ?_
  simp only [window, List.getElem_map, List.getElem_range]
  exact overwrite_apply_add h2

/-- A list written in two parts. -/
lemma overwrite_append (l₁ l₂ : List β) :
    overwrite f a (l₁ ++ l₂) = overwrite (overwrite f a l₁) (a + l₁.length) l₂ := by
  funext x
  by_cases h1 : x < a ∨ a + (l₁ ++ l₂).length ≤ x
  · rw [overwrite_of_outside h1]
    rw [List.length_append] at h1
    rw [overwrite_of_outside (by omega), overwrite_of_outside (by omega)]
  · rw [List.length_append] at h1
    by_cases h2 : x < a + l₁.length
    · rw [overwrite_of_outside (f := overwrite f a l₁) (Or.inl h2)]
      have hx : x = a + (x - a) := by omega
      rw [hx, overwrite_apply_add (by simp; omega), overwrite_apply_add (by omega),
        List.getElem_append_left (by omega)]
    · have hx : x = a + l₁.length + (x - (a + l₁.length)) := by omega
      rw [hx, overwrite_apply_add (by omega), Nat.add_assoc, overwrite_apply_add (by simp; omega),
        List.getElem_append_right (by omega)]
      simp

/-! ### Lists of writes -/

/-- The writes of a list of places and contents, the first one first. -/
def overwriteAll (f : ℕ → β) (writes : List (ℕ × List β)) : ℕ → β :=
  writes.foldl (fun f w => overwrite f w.1 w.2) f

/-- Two writes do not meet. -/
def Apart (w w' : ℕ × List β) : Prop :=
  w.1 + w.2.length ≤ w'.1 ∨ w'.1 + w'.2.length ≤ w.1

variable {writes : List (ℕ × List β)} {w : ℕ × List β}

lemma overwriteAll_cons : overwriteAll f (w :: writes)
    = overwriteAll (overwrite f w.1 w.2) writes := rfl

/-- A cell that no write covers keeps its value. -/
lemma overwriteAll_of_outside (h : ∀ w ∈ writes, x < w.1 ∨ w.1 + w.2.length ≤ x) :
    overwriteAll f writes x = f x := by
  induction writes generalizing f with
  | nil => rfl
  | cons w writes ih =>
      rw [overwriteAll_cons, ih fun w' hw' => h w' (List.mem_cons_of_mem w hw'),
        overwrite_of_outside (h w (by simp))]

/-- A cell that a write covers gets the value of that write, when the writes do
not meet. -/
lemma overwriteAll_of_mem (hapart : writes.Pairwise Apart) (hw : w ∈ writes) (hax : w.1 ≤ x)
    (hxw : x < w.1 + w.2.length) : overwriteAll f writes x = overwrite f w.1 w.2 x := by
  induction writes generalizing f with
  | nil => exact absurd hw List.not_mem_nil
  | cons w' writes ih =>
      rw [List.pairwise_cons] at hapart
      rw [overwriteAll_cons]
      rcases List.mem_cons.mp hw with rfl | hw
      · refine overwriteAll_of_outside fun w' hw' => ?_
        have := hapart.1 w' hw'
        rw [Apart] at this
        omega
      · rw [ih hapart.2 hw]
        exact overwrite_congr hax hxw

lemma overwriteAll_append (writes writes' : List (ℕ × List β)) :
    overwriteAll f (writes ++ writes') = overwriteAll (overwriteAll f writes) writes' :=
  List.foldl_append

lemma Apart.symm {w w' : ℕ × List β} (h : Apart w w') : Apart w' w := Or.symm h

/-- Writes that do not meet may be made in any order. -/
lemma overwriteAll_perm {writes' : List (ℕ × List β)} (hperm : writes.Perm writes')
    (hapart : writes.Pairwise Apart) : overwriteAll f writes = overwriteAll f writes' := by
  have hapart' : writes'.Pairwise Apart := (hperm.pairwise_iff Apart.symm).mp hapart
  funext x
  by_cases hcovered : ∃ w ∈ writes, w.1 ≤ x ∧ x < w.1 + w.2.length
  · obtain ⟨w, hw, hax, hxw⟩ := hcovered
    rw [overwriteAll_of_mem hapart hw hax hxw,
      overwriteAll_of_mem hapart' (hperm.mem_iff.mp hw) hax hxw]
  · have houtside : ∀ w ∈ writes, x < w.1 ∨ w.1 + w.2.length ≤ x := by
      intro w hw
      by_contra hmeets
      exact hcovered ⟨w, hw, by omega, by omega⟩
    rw [overwriteAll_of_outside houtside,
      overwriteAll_of_outside fun w hw => houtside w (hperm.mem_iff.mpr hw)]

/-! ### Constant writes -/

/-- The function `f` with the value `v` written to the `n` cells from `a` on. -/
def fill (f : ℕ → β) (a n : ℕ) (v : β) : ℕ → β :=
  fun x => if a ≤ x ∧ x < a + n then v else f x

lemma fill_of_mem {v : β} (hax : a ≤ x) (hxn : x < a + n) : fill f a n v x = v :=
  if_pos ⟨hax, hxn⟩

lemma fill_of_outside {v : β} (h : x < a ∨ a + n ≤ x) : fill f a n v x = f x :=
  if_neg (by omega)

end Foundations
