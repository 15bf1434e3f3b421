/-
The search for the only match in a list.

* `onlyMatch p target found xs`: a scan that takes the target of an element in `p` and fails
  at a second one, or at one without a target;
* `onlyMatch_eq`: what it finds depends on the elements in `p` only;
* `onlyMatch_perm`: and not on their order;
* `onlyMatch_map`: the scan of a list whose elements were replaced, with their targets.
-/
import Mathlib

namespace Foundations

variable {α β : Type}

/-- The scan, with what was found so far; `none` is its failure. -/
def onlyMatch (p : α → Bool) (target : α → Option β) :
    Option β → List α → Option (Option β)
  | found, [] => some found
  | found, x :: xs =>
    if p x then
      if found.isSome then none
      else (target x).bind fun b => onlyMatch p target (some b) xs
    else onlyMatch p target found xs

/-- The only one of the matches. -/
def theMatch (target : α → Option β) : List α → Option (Option β)
  | [] => some none
  | [x] => (target x).map some
  | _ => none

section Scan

variable {p : α → Bool} {target : α → Option β} {xs ys : List α}

/-- With something found already, there must be no match. -/
lemma onlyMatch_found (b : β) :
    onlyMatch p target (some b) xs = if xs.filter p = [] then some (some b) else none := by
  induction xs with
  | nil => rfl
  | cons x xs ih =>
    rw [onlyMatch, List.filter_cons]
    split
    · rw [Option.isSome_some, if_pos rfl, if_neg (List.cons_ne_nil x _)]
    · exact ih

/-- **The scan finds the only match.** -/
lemma onlyMatch_eq : onlyMatch p target none xs = theMatch target (xs.filter p) := by
  induction xs with
  | nil => rfl
  | cons x xs ih =>
    rw [onlyMatch, List.filter_cons]
    split
    · rw [Option.isSome_none, if_neg Bool.false_ne_true]
      simp only [onlyMatch_found]
      cases xs.filter p <;> cases hx : target x <;> simp [theMatch, hx]
    · exact ih

/-- Matches in another order. -/
lemma theMatch_perm (h : xs.Perm ys) : theMatch target xs = theMatch target ys := by
  match xs, ys, h.length_eq, h with
  | [], [], _, _ => rfl
  | [x], [y], _, h => rw [List.singleton_perm_singleton.mp h]
  | _ :: _ :: _, _ :: _ :: _, _, _ => rfl

/-- **The order does not matter.** -/
lemma onlyMatch_perm (h : xs.Perm ys) :
    onlyMatch p target none xs = onlyMatch p target none ys := by
  rw [onlyMatch_eq, onlyMatch_eq, theMatch_perm (h.filter p)]

/-- A match that is found is the only one. -/
lemma onlyMatch_eq_some_some {b : β} :
    onlyMatch p target none xs = some (some b)
      ↔ ∃ x, xs.filter p = [x] ∧ target x = some b := by
  rw [onlyMatch_eq]
  match xs.filter p with
  | [] => simp [theMatch]
  | [x] => simp [theMatch]
  | _ :: _ :: _ => simp [theMatch]

/-- Nothing is found when there is no match. -/
lemma onlyMatch_eq_some_none :
    onlyMatch p target none xs = some none ↔ xs.filter p = [] := by
  rw [onlyMatch_eq]
  match xs.filter p with
  | [] => simp [theMatch]
  | [x] => simp [theMatch]
  | _ :: _ :: _ => simp [theMatch]

/-- The scan of a list whose elements were replaced. -/
lemma onlyMatch_map {α' β' : Type} {p' : α' → Bool} {target' : α' → Option β'} {g : α → α'}
    {f : β → β'} (hp : ∀ x, p' (g x) = p x)
    (htarget : ∀ x, p x = true → target' (g x) = (target x).map f) (found : Option β) :
    onlyMatch p' target' (found.map f) (xs.map g)
      = (onlyMatch p target found xs).map (Option.map f) := by
  induction xs generalizing found with
  | nil => rfl
  | cons x xs ih =>
    rw [List.map_cons, onlyMatch, onlyMatch, hp, Option.isSome_map]
    split
    · rename_i hx
      split
      · rfl
      · rw [htarget x hx]
        cases target x with
        | none => rfl
        | some b => exact ih (some b)
    · exact ih found

end Scan

end Foundations
