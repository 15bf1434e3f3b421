/-
Runs under a budget, loops of rounds, and sequences of calls.

* `runWhile go step n s`: at most `n` steps from `s`, as long as `go` holds;
  `runWhile_invariant` is its invariant rule, `runWhile_simulation` the one for two runs;
* `rounds round fuel s`: a loop whose body ends in a next state or in a result;
  `rounds_eq_some` says that it computes every function that satisfies the equation of
  the loop, once some measure goes down from round to round;
* `answers step s calls`: the answers of a system to a sequence of calls, and
  `answers_eq_of_simulation`: related systems answer alike.
-/
import Mathlib

namespace Foundations

variable {S R : Type}

/-! ### Steps -/

/-- At most `n` steps, as long as `go` holds. -/
def runWhile (go : S → Bool) (step : S → S) : ℕ → S → S
  | 0, s => s
  | n + 1, s => if go s then runWhile go step n (step s) else s

section RunWhile

variable {go : S → Bool} {step : S → S} {s : S}

lemma runWhile_of_stopped (n : ℕ) (h : go s = false) : runWhile go step n s = s := by
  cases n with
  | zero => rfl
  | succ n => rw [runWhile, h, if_neg Bool.false_ne_true]

lemma runWhile_succ (n : ℕ) (h : go s = true) :
    runWhile go step (n + 1) s = runWhile go step n (step s) := by
  rw [runWhile, if_pos h]

/-- What a step keeps, with the budget that is left, a run keeps. -/
lemma runWhile_invariant {P : ℕ → S → Prop} {n : ℕ}
    (hstep : ∀ left s, go s = true → P (left + 1) s → P left (step s)) (h : P n s) :
    ∃ left, P left (runWhile go step n s) ∧ (left = 0 ∨ go (runWhile go step n s) = false) := by
  induction n generalizing s with
  | zero => exact ⟨0, h, .inl rfl⟩
  | succ n ih =>
      cases hgo : go s with
      | true =>
          rw [runWhile_succ n hgo]
          exact ih (hstep n s hgo h)
      | false =>
          rw [runWhile_of_stopped (n + 1) hgo]
          exact ⟨n + 1, h, .inr hgo⟩

/-- Related runs stay related. -/
lemma runWhile_simulation {S' : Type} {go' : S' → Bool} {step' : S' → S'} {r : S → S' → Prop}
    (hgo : ∀ s s', r s s' → go s = go' s') (hstep : ∀ s s', r s s' → r (step s) (step' s'))
    (n : ℕ) {s' : S'} (h : r s s') : r (runWhile go step n s) (runWhile go' step' n s') := by
  induction n generalizing s s' with
  | zero => exact h
  | succ n ih =>
      rw [runWhile, runWhile, hgo s s' h]
      split
      · exact ih (hstep s s' h)
      · exact h

end RunWhile

/-! ### Rounds -/

/-- A loop of at most `fuel` rounds; `none` when they do not suffice. -/
def rounds (round : S → S ⊕ R) : ℕ → S → Option R
  | 0, _ => none
  | fuel + 1, s =>
    match round s with
    | .inl next => rounds round fuel next
    | .inr result => some result

/-- **Loops compute the solutions of their equation.** -/
lemma rounds_eq_some {round : S → S ⊕ R} {spec : S → R} (Inv : S → Prop) (measure : S → ℕ)
    (hspec : ∀ s, Inv s → spec s = (round s).elim spec id)
    (hnext : ∀ s next, Inv s → round s = .inl next → Inv next ∧ measure next < measure s)
    {fuel : ℕ} {s : S} (hs : Inv s) (hfuel : measure s < fuel) :
    rounds round fuel s = some (spec s) := by
  induction fuel generalizing s with
  | zero => exact absurd hfuel (Nat.not_lt_zero _)
  | succ fuel ih =>
      rw [rounds, hspec s hs]
      cases hround : round s with
      | inl next =>
          obtain ⟨hinv, hless⟩ := hnext s next hs hround
          exact ih hinv (by omega)
      | inr result => rfl

/-- Two rounds that end alike go on alike. -/
lemma elim_eq_of_liftRel {S' : Type} {r : S → S' → Prop} {f : S → R} {f' : S' → R}
    {x : S ⊕ R} {y : S' ⊕ R} (h : Sum.LiftRel r Eq x y) (hf : ∀ s s', r s s' → f s = f' s') :
    x.elim f id = y.elim f' id := by
  cases h with
  | inl hr => exact hf _ _ hr
  | inr heq => exact heq

/-- Two rounds in step, with what becomes of them. -/
lemma elim_related_of_liftRel {S' R' T T' : Type} {r : S → S' → Prop} {p : R → R' → Prop}
    {t : T → T' → Prop} {f : S → T} {f' : S' → T'} {g : R → T} {g' : R' → T'} {x : S ⊕ R}
    {y : S' ⊕ R'} (h : Sum.LiftRel r p x y) (hf : ∀ s s', r s s' → t (f s) (f' s'))
    (hg : ∀ a a', p a a' → t (g a) (g' a')) : t (x.elim f g) (y.elim f' g') := by
  cases h with
  | inl hr => exact hf _ _ hr
  | inr hp => exact hg _ _ hp

/-! ### Answers -/

/-- The answers to a sequence of calls. -/
def answers {C A : Type} (step : S → C → A × S) : S → List C → List A
  | _, [] => []
  | s, call :: calls => (step s call).1 :: answers step (step s call).2 calls

/-- Systems that answer alike as long as they are related, and stay related, give the same
answers. -/
lemma answers_eq_of_simulation {S' C A : Type} {step : S → C → A × S} {step' : S' → C → A × S'}
    {ok : C → Prop} {r : S → S' → Prop}
    (hstep : ∀ s s' call, ok call → r s s' →
      (step s call).1 = (step' s' call).1 ∧ r (step s call).2 (step' s' call).2)
    {calls : List C} (hcalls : ∀ call ∈ calls, ok call) {s : S} {s' : S'} (h : r s s') :
    answers step s calls = answers step' s' calls := by
  induction calls generalizing s s' with
  | nil => rfl
  | cons call calls ih =>
      obtain ⟨hcall, hrest⟩ := List.forall_mem_cons.mp hcalls
      obtain ⟨hanswer, hnext⟩ := hstep s s' call hcall h
      rw [answers, answers, hanswer, ih hrest hnext]

end Foundations
