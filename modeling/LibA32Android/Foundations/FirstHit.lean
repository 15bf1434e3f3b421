/-
Searching candidates in order.

Each candidate misses, is a hit or fails, and the first one that does not miss
decides.

* `orNext`, `firstHit`: one candidate, and a list of them;
* `firstHit_of_miss`, `firstHit_append_of_miss`, `firstHit_of_mem`: misses do not
  matter;
* `firstHit_eq_of_unique`: when at most one candidate is not a miss, neither the
  order nor the presence of other candidates matters;
* `foldl_ite_of_mem`: a loop that overwrites its result, when all candidates say the
  same;
* `LinkedFrom`: the candidates met by following links up to a stop value, which
  are pairwise distinct;
* `exists_iterate_eq_of_card_lt`: links that do not come to a stop go round.
-/
import LibA32Android.Foundations.Checks
import Mathlib

namespace Foundations

variable {ι ε α : Type}

/-- What one candidate says, or what comes after it. -/
def orNext (outcome : Except ε (Option α)) (next : Except ε α) : Except ε α :=
  match outcome with
  | .error e => .error e
  | .ok (some a) => .ok a
  | .ok none => next

@[simp] lemma orNext_miss (next : Except ε α) : orNext (.ok none) next = next := rfl

lemma map_orNext {outcome : Except ε (Option α)} (h : outcome ≠ .ok none) (next : Except ε α) :
    (orNext outcome next).map some = outcome := by
  rcases outcome with e | _ | a
  · rfl
  · exact absurd rfl h
  · rfl

lemma orNext_congr {outcome : Except ε (Option α)} {next next' : Except ε α}
    (h : outcome = .ok none → next = next') : orNext outcome next = orNext outcome next' := by
  rcases outcome with e | _ | a
  · rfl
  · exact h rfl
  · rfl

lemma orNext_eq_ok {outcome : Except ε (Option α)} {next : Except ε α} {a : α}
    (h : orNext outcome next = .ok a) : outcome = .ok (some a) ∨ next = .ok a := by
  rcases outcome with e | _ | b
  · cases h
  · exact .inr h
  · cases h
    exact .inl rfl

/-- The first candidate that does not miss decides, and `notFound` is the error
without one. -/
def firstHit (outcome : ι → Except ε (Option α)) (notFound : ε) : List ι → Except ε α
  | [] => .error notFound
  | i :: l => orNext (outcome i) (firstHit outcome notFound l)

variable {outcome : ι → Except ε (Option α)} {notFound : ε} {l l' : List ι} {i : ι}

lemma firstHit_of_miss (h : ∀ i ∈ l, outcome i = .ok none) :
    firstHit outcome notFound l = .error notFound := by
  induction l with
  | nil => rfl
  | cons i l ih =>
      rw [firstHit, h i List.mem_cons_self, orNext_miss]
      exact ih fun j hj => h j (List.mem_cons_of_mem i hj)

lemma firstHit_append_of_miss (h : ∀ i ∈ l, outcome i = .ok none) :
    firstHit outcome notFound (l ++ l') = firstHit outcome notFound l' := by
  induction l with
  | nil => rfl
  | cons i l ih =>
      rw [List.cons_append, firstHit, h i List.mem_cons_self, orNext_miss]
      exact ih fun j hj => h j (List.mem_cons_of_mem i hj)

/-- A candidate whose companions all miss decides alone. -/
lemma firstHit_of_mem (hi : i ∈ l) (h : ∀ j ∈ l, j ≠ i → outcome j = .ok none) :
    firstHit outcome notFound l = orNext (outcome i) (.error notFound) := by
  induction l with
  | nil => exact absurd hi List.not_mem_nil
  | cons j l ih =>
      have hrest : ∀ k ∈ l, k ≠ i → outcome k = .ok none := fun k hk =>
        h k (List.mem_cons_of_mem j hk)
      by_cases hj : j = i
      · subst hj
        refine orNext_congr fun hmiss => firstHit_of_miss fun k hk => ?_
        by_cases hkj : k = j
        · rw [hkj, hmiss]
        · exact hrest k hk hkj
      · rw [firstHit, h j List.mem_cons_self hj, orNext_miss]
        exact ih ((List.mem_cons.mp hi).resolve_left fun h => hj h.symm) hrest

/-- **One hit at most**: two lists of candidates that hold the same hits lead to
the same outcome. -/
lemma firstHit_eq_of_unique
    (hunique : ∀ i ∈ l, ∀ j ∈ l, outcome i ≠ .ok none → outcome j ≠ .ok none → i = j)
    (hmem : ∀ i, outcome i ≠ .ok none → (i ∈ l ↔ i ∈ l')) :
    firstHit outcome notFound l' = firstHit outcome notFound l := by
  by_cases hhit : ∃ i ∈ l, outcome i ≠ .ok none
  · obtain ⟨i, hi, hout⟩ := hhit
    have hother : ∀ j, (j ∈ l ∨ j ∈ l') → j ≠ i → outcome j = .ok none := by
      intro j hj hne
      by_contra hj'
      exact hne (hunique j (hj.elim id (hmem j hj').mpr) i hi hj' hout)
    rw [firstHit_of_mem hi fun j hj => hother j (.inl hj),
      firstHit_of_mem ((hmem i hout).mp hi) fun j hj => hother j (.inr hj)]
  · push Not at hhit
    have hhit' : ∀ i ∈ l', outcome i = .ok none := by
      intro i hi
      by_contra hout
      exact hout (hhit i ((hmem i hout).mpr hi))
    rw [firstHit_of_miss hhit, firstHit_of_miss hhit']

/-! ### Overwriting candidates -/

section Overwriting

variable {p : ι → Prop} [DecidablePred p] {f : ι → α}

/-- A loop that keeps what the last candidate says keeps what all of them say. -/
lemma foldl_ite_of_forall {a : α} (h : ∀ i ∈ l, p i → f i = a) :
    l.foldl (fun a i => if p i then f i else a) a = a := by
  induction l with
  | nil => rfl
  | cons i l ih =>
      have hstep : (if p i then f i else a) = a := by
        split
        · exact h i List.mem_cons_self ‹_›
        · rfl
      rw [List.foldl_cons, hstep]
      exact ih fun j hj => h j (List.mem_cons_of_mem i hj)

/-- With a candidate that says something it does not matter where the loop starts. -/
lemma foldl_ite_of_mem (hi : i ∈ l) (hp : p i) (h : ∀ j ∈ l, p j → f j = f i) (a : α) :
    l.foldl (fun a i => if p i then f i else a) a = f i := by
  induction l generalizing a with
  | nil => exact absurd hi List.not_mem_nil
  | cons j l ih =>
      have hrest : ∀ k ∈ l, p k → f k = f i := fun k hk => h k (List.mem_cons_of_mem j hk)
      rw [List.foldl_cons]
      by_cases hj : p j
      · rw [if_pos hj, h j List.mem_cons_self hj]
        exact foldl_ite_of_forall hrest
      · have hmem : i ∈ l := (List.mem_cons.mp hi).resolve_left fun heq => hj (heq ▸ hp)
        exact ih hmem hrest _

end Overwriting

/-! ### Linked candidates -/

/-- The entries met from `i` on by following `next` up to `stop`. -/
inductive LinkedFrom (next : ι → Option ι) (stop : ι) : ι → List ι → Prop
  | stop : LinkedFrom next stop stop []
  | link {i j : ι} {l : List ι} (hi : i ≠ stop) (hnext : next i = some j)
      (hl : LinkedFrom next stop j l) : LinkedFrom next stop i (i :: l)

namespace LinkedFrom

variable {next : ι → Option ι} {stop : ι}

lemma ne_stop (h : LinkedFrom next stop i l) : ∀ j ∈ l, j ≠ stop := by
  induction h with
  | stop => simp
  | link hi _ _ ih => exact List.forall_mem_cons.mpr ⟨hi, ih⟩

lemma unique (h : LinkedFrom next stop i l) (h' : LinkedFrom next stop i l') : l = l' := by
  induction h generalizing l' with
  | stop =>
      cases h' with
      | stop => rfl
      | link hi _ _ => exact absurd rfl hi
  | link hi hnext _ ih =>
      cases h' with
      | stop => exact absurd rfl hi
      | link _ hnext' hl' =>
          rw [hnext] at hnext'
          cases hnext'
          rw [ih hl']

/-- From an entry on, the links lead through a tail of the list. -/
lemma of_mem (h : LinkedFrom next stop i l) {j : ι} (hj : j ∈ l) :
    ∃ tail, tail <:+ l ∧ LinkedFrom next stop j tail := by
  induction h with
  | stop => exact absurd hj List.not_mem_nil
  | link hi hnext hl ih =>
      rcases List.mem_cons.mp hj with rfl | hj
      · exact ⟨_, List.suffix_rfl, .link hi hnext hl⟩
      · obtain ⟨tail, htail, hlinked⟩ := ih hj
        exact ⟨tail, htail.trans (List.suffix_cons _ _), hlinked⟩

/-- Links that come to a stop do not meet an entry twice. -/
lemma nodup (h : LinkedFrom next stop i l) : l.Nodup := by
  induction h with
  | stop => exact List.nodup_nil
  | link hi hnext hl ih =>
      refine List.nodup_cons.mpr ⟨fun hmem => ?_, ih⟩
      obtain ⟨tail, htail, hlinked⟩ := hl.of_mem hmem
      have hlength := htail.length_le
      rw [hlinked.unique (.link hi hnext hl), List.length_cons] at hlength
      omega

lemma length_le {next : ℕ → Option ℕ} {stop i n : ℕ} {l : List ℕ}
    (h : LinkedFrom next stop i l) (hlt : ∀ j ∈ l, j < n) : l.length ≤ n := by
  have hsub : l ⊆ List.range n := fun j hj => List.mem_range.mpr (hlt j hj)
  simpa using (List.subperm_of_subset h.nodup hsub).length_le

end LinkedFrom

/-- Links that stay among fewer than `n` entries for `n` steps go round: later on they
meet no other entries. -/
lemma exists_iterate_eq_of_card_lt {next : ι → ι} {s : Finset ι} {n : ℕ} (hcard : s.card < n)
    (hmem : ∀ k < n, next^[k] i ∈ s) (k : ℕ) : ∃ j < n, next^[k] i = next^[j] i := by
  obtain ⟨a, ha, b, hb, hne, hab⟩ := Finset.exists_ne_map_eq_of_card_lt_of_maps_to
    (s := Finset.range n) (f := fun k => next^[k] i) (by rwa [Finset.card_range])
    (fun k hk => hmem k (Finset.mem_range.mp hk))
  have hrange := Finset.mem_range.mp ha
  have hrange' := Finset.mem_range.mp hb
  clear ha hb
  wlog hlt : a < b generalizing a b
  · exact this b a hne.symm hab.symm hrange' hrange (by omega)
  -- an entry behind `b` was met `b - a` steps before
  induction k using Nat.strong_induction_on with
  | _ k ih =>
      rcases Nat.lt_or_ge k n with hk | hk
      · exact ⟨k, hk, rfl⟩
      · have hback : next^[k] i = next^[k - (b - a)] i := by
          rw [show k = k - b + b by omega, Function.iterate_add_apply, ← hab,
            ← Function.iterate_add_apply, show k - b + b - (b - a) = k - b + a by omega]
        rw [hback]
        exact ih (k - (b - a)) (by omega)

end Foundations
