/-
Programs that call a system and go on with its answers.

* `Interaction C A α`: a program is done with a value, or makes a call `c : C` and goes on
  with the answer in `A c`;
* `run respond p s`: the run of a program against a system with states `s`, and `run_bind`:
  runs of programs one after the other;
* `Makes ok p`: every call that the program can make is `ok`;
* `run_simulation`: systems that answer alike as long as they are related, and stay related,
  cannot be told apart.
-/
import Mathlib

namespace Foundations

/-- A program over calls in `C` with answers in `A`. -/
inductive Interaction (C : Type) (A : C → Type) (α : Type) where
  | done (a : α)
  | call (c : C) (next : A c → Interaction C A α)

namespace Interaction

variable {C : Type} {A : C → Type} {α β S S' : Type}

/-- One program after the other. -/
def bind : Interaction C A α → (α → Interaction C A β) → Interaction C A β
  | done a, f => f a
  | call c next, f => call c fun answer => (next answer).bind f

instance : Monad (Interaction C A) where
  pure := done
  bind := bind

/-- The program that makes one call. -/
def perform (c : C) : Interaction C A (A c) := call c done

/-- The run against a system, with the value and the last state. -/
def run (respond : (c : C) → S → A c × S) : Interaction C A α → S → α × S
  | done a, s => (a, s)
  | call c next, s => (next (respond c s).1).run respond (respond c s).2

section Run

variable {respond : (c : C) → S → A c × S} {respond' : (c : C) → S' → A c × S'}

@[simp] lemma run_bind (p : Interaction C A α) (f : α → Interaction C A β) (s : S) :
    (p >>= f).run respond s = (f (p.run respond s).1).run respond (p.run respond s).2 := by
  change (p.bind f).run respond s = _
  induction p generalizing s with
  | done a => rfl
  | call c next ih => exact ih (respond c s).1 (respond c s).2

/-- Every call that the program can make is `ok`, whatever the answers are. -/
inductive Makes (ok : C → Prop) : Interaction C A α → Prop
  | done (a : α) : Makes ok (done a)
  | call (c : C) (next : A c → Interaction C A α) (hcall : ok c)
      (hnext : ∀ answer, Makes ok (next answer)) : Makes ok (call c next)

lemma Makes.of_true (p : Interaction C A α) : p.Makes fun _ => True := by
  induction p with
  | done a => exact .done a
  | call c next ih => exact .call c next trivial ih

lemma Makes.bind {ok : C → Prop} {p : Interaction C A α} {f : α → Interaction C A β}
    (hp : p.Makes ok) (hf : ∀ a, (f a).Makes ok) : (p >>= f).Makes ok := by
  change (p.bind f).Makes ok
  induction hp with
  | done a => exact hf a
  | call c next hcall _ ih => exact .call c _ hcall ih

/-- **Systems that answer alike cannot be told apart.** -/
lemma run_simulation {ok : C → Prop} {r : S → S' → Prop}
    (hcall : ∀ c s s', ok c → r s s' →
      (respond c s).1 = (respond' c s').1 ∧ r (respond c s).2 (respond' c s').2)
    {p : Interaction C A α} (hp : p.Makes ok) {s : S} {s' : S'} (h : r s s') :
    (p.run respond s).1 = (p.run respond' s').1 ∧ r (p.run respond s).2 (p.run respond' s').2 := by
  induction hp generalizing s s' with
  | done a => exact ⟨rfl, h⟩
  | call c next hok _ ih =>
      obtain ⟨hanswer, hnext⟩ := hcall c s s' hok h
      rw [run, run, hanswer]
      exact ih _ hnext

end Run

end Interaction

end Foundations
