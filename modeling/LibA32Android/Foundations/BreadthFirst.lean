/-
Breadth-first order.

* `firsts seen l`: the entries of `l` that are new, each at its first place;
* `breadthFirst succ levels seen frontier`: level by level, the successors of
  one level in order being the candidates for the next one;
* `Traversal succ expanded queue order`: the order in which a queue of pending
  entries is worked off when entries that were expanded are passed over;
* `Traversal.exists_of_closed`, `Traversal.eq_breadthFirst`: inside a finite
  closed set the queue is worked off, and in the breadth-first order.
-/
import Mathlib

namespace Foundations

variable {α : Type} [DecidableEq α]

/-! ### First occurrences -/

/-- The entries of a list that are not in `seen`, without later repetitions. -/
def firsts (seen : List α) : List α → List α
  | [] => []
  | a :: l => if a ∈ seen then firsts seen l else a :: firsts (a :: seen) l

section Firsts

variable {seen l l' : List α} {a : α}

@[simp] lemma firsts_nil : firsts seen [] = [] := rfl

lemma firsts_cons_of_mem (h : a ∈ seen) : firsts seen (a :: l) = firsts seen l := if_pos h

lemma firsts_cons_of_notMem (h : a ∉ seen) :
    firsts seen (a :: l) = a :: firsts (a :: seen) l := if_neg h

lemma mem_firsts : a ∈ firsts seen l ↔ a ∈ l ∧ a ∉ seen := by
  induction l generalizing seen with
  | nil => simp
  | cons b l ih =>
      by_cases hb : b ∈ seen
      · rw [firsts_cons_of_mem hb, ih, List.mem_cons]
        constructor
        · exact fun ⟨h1, h2⟩ => ⟨Or.inr h1, h2⟩
        · rintro ⟨rfl | h1, h2⟩
          · exact absurd hb h2
          · exact ⟨h1, h2⟩
      · rw [firsts_cons_of_notMem hb, List.mem_cons, ih, List.mem_cons, List.mem_cons, not_or]
        by_cases hab : a = b
        · subst hab
          simp [hb]
        · simp [hab]

end Firsts

/-! ### Levels -/

/-- The breadth-first order from `frontier` on, over the levels left. -/
def breadthFirst (succ : α → List α) : ℕ → List α → List α → List α
  | 0, _, _ => []
  | levels + 1, seen, frontier =>
    firsts seen frontier
      ++ breadthFirst succ levels (firsts seen frontier ++ seen)
          ((firsts seen frontier).flatMap succ)

variable {succ : α → List α}

@[simp] lemma breadthFirst_nil (levels : ℕ) (seen : List α) :
    breadthFirst succ levels seen [] = [] := by
  induction levels generalizing seen with
  | zero => rfl
  | succ levels ih => simp [breadthFirst, ih]

/-- The order stays inside a closed set. -/
lemma mem_of_mem_breadthFirst {S : α → Prop} (hclosed : ∀ a, S a → ∀ b ∈ succ a, S b) {levels : ℕ}
    {seen frontier : List α} (hfrontier : ∀ a ∈ frontier, S a) :
    ∀ a ∈ breadthFirst succ levels seen frontier, S a := by
  induction levels generalizing seen frontier with
  | zero => simp [breadthFirst]
  | succ levels ih =>
      have hfirsts : ∀ a ∈ firsts seen frontier, S a := fun a ha =>
        hfrontier a (mem_firsts.mp ha).1
      intro a ha
      rw [breadthFirst, List.mem_append] at ha
      refine ha.elim (hfirsts a) (ih (fun b hb => ?_) a)
      obtain ⟨c, hc, hb⟩ := List.mem_flatMap.mp hb
      exact hclosed c (hfirsts c hc) b hb

/-! ### Working off a queue -/

/-- The order in which the entries of a queue are visited: what was expanded is
passed over, the first entry left is visited and expanded, and its successors
go to the end of the queue. -/
inductive Traversal (succ : α → List α) : List α → List α → List α → Prop
  | nil {expanded queue : List α} (h : ∀ a ∈ queue, a ∈ expanded) :
      Traversal succ expanded queue []
  | visit {expanded queue rest order : List α} {a : α}
      (h : queue.filter (· ∉ expanded) = a :: rest)
      (t : Traversal succ (a :: expanded) (rest ++ succ a) order) :
      Traversal succ expanded queue (a :: order)

namespace Traversal

variable {expanded expanded' queue queue' order : List α} {a : α}

/-- What was expanded may be dropped from the queue. -/
lemma congr_queue (t : Traversal succ expanded queue order)
    (h : queue'.filter (· ∉ expanded) = queue.filter (· ∉ expanded)) :
    Traversal succ expanded queue' order := by
  cases t with
  | nil hall =>
      refine .nil fun a ha => ?_
      have hnil : queue.filter (· ∉ expanded) = [] := by simpa using hall
      rw [hnil, List.filter_eq_nil_iff] at h
      simpa using h a ha
  | visit hfirst t => exact .visit (h.trans hfirst) t

lemma congr_expanded (t : Traversal succ expanded queue order)
    (h : ∀ a, a ∈ expanded' ↔ a ∈ expanded) : Traversal succ expanded' queue order := by
  induction t generalizing expanded' with
  | nil hall => exact .nil fun a ha => (h a).mpr (hall a ha)
  | visit hfirst t ih =>
      refine .visit ?_ (ih fun b => by simp only [List.mem_cons, h b])
      simp only [h]
      exact hfirst

lemma order_of_nil (t : Traversal succ expanded [] order) : order = [] := by
  cases t with
  | nil _ => rfl
  | visit hfirst _ => simp at hfirst

/-- The head of the queue was expanded. -/
lemma skip (t : Traversal succ expanded (a :: queue) order) (h : a ∈ expanded) :
    Traversal succ expanded queue order :=
  t.congr_queue (by simp [h])

/-- The head of the queue is visited; its successors that were expanded need not
be queued. -/
lemma visit_head (t : Traversal succ expanded (a :: queue) order) (h : a ∉ expanded) :
    ∃ order', order = a :: order' ∧ Traversal succ (a :: expanded)
      (queue ++ (succ a).filter (· ∉ a :: expanded)) order' := by
  cases t with
  | nil hall => exact absurd (hall a List.mem_cons_self) h
  | visit hfirst t =>
      rw [List.filter_cons_of_pos (by simpa using h)] at hfirst
      obtain ⟨rfl, rfl⟩ := List.cons.inj hfirst
      refine ⟨_, rfl, t.congr_queue ?_⟩
      simp only [List.filter_append, List.filter_filter, List.mem_cons, not_or]
      grind

/-- **One level**: the part `level` of the queue is worked off before what
follows it, and its new entries put their successors behind that. -/
lemma split_level {level : List α} (t : Traversal succ expanded (level ++ queue) order) :
    ∃ order', order = firsts expanded level ++ order'
      ∧ Traversal succ (firsts expanded level ++ expanded)
          (queue ++ (firsts expanded level).flatMap succ) order' := by
  induction level generalizing expanded queue order with
  | nil => exact ⟨order, rfl, by simpa using t⟩
  | cons a level ih =>
      by_cases ha : a ∈ expanded
      · rw [firsts_cons_of_mem ha]
        exact ih (t.skip ha)
      · obtain ⟨order₁, rfl, t₁⟩ := t.visit_head ha
        have t₂ : Traversal succ (a :: expanded) (level ++ (queue ++ succ a)) order₁ :=
          t₁.congr_queue (by simp [List.filter_append, List.filter_filter])
        obtain ⟨order', rfl, t'⟩ := ih t₂
        rw [firsts_cons_of_notMem ha]
        refine ⟨order', rfl, ?_⟩
        rw [List.flatMap_cons, ← List.append_assoc]
        refine t'.congr_expanded fun b => ?_
        simp only [List.cons_append, List.mem_cons, List.mem_append]
        tauto

/-- Only the successors of visited entries matter. -/
lemma congr_succ {succ' : α → List α} (t : Traversal succ expanded queue order)
    (h : ∀ a ∈ order, succ' a = succ a) : Traversal succ' expanded queue order := by
  induction t with
  | nil hall => exact .nil hall
  | visit hfirst t ih =>
      refine .visit hfirst ?_
      rw [h _ List.mem_cons_self]
      exact ih fun b hb => h b (List.mem_cons_of_mem _ hb)

section Closed

variable {domain : Finset α}

/-- Inside a finite closed set the queue is worked off. -/
theorem exists_of_closed (hclosed : ∀ a ∈ domain, ∀ b ∈ succ a, b ∈ domain)
    (hqueue : ∀ a ∈ queue, a ∈ domain) :
    ∃ order, Traversal succ expanded queue order := by
  -- each visit expands an entry of the set
  induction hn : (domain.filter (· ∉ expanded)).card using Nat.strong_induction_on
    generalizing expanded queue with
  | _ n ih =>
      cases hfirst : queue.filter (· ∉ expanded) with
      | nil =>
          refine ⟨[], .nil fun a ha => ?_⟩
          simpa using List.filter_eq_nil_iff.mp hfirst a ha
      | cons a rest =>
          have hmem : ∀ b ∈ a :: rest, b ∈ queue ∧ b ∉ expanded := by
            intro b hb
            rw [← hfirst, List.mem_filter, decide_eq_true_eq] at hb
            exact hb
          obtain ⟨haq, hae⟩ := hmem a List.mem_cons_self
          have hlt : (domain.filter (· ∉ a :: expanded)).card < n := by
            rw [← hn]
            refine Finset.card_lt_card (Finset.ssubset_iff_of_subset ?_ |>.mpr ⟨a, ?_, ?_⟩)
            · intro b hb
              simp only [Finset.mem_filter, List.mem_cons, not_or] at hb ⊢
              exact ⟨hb.1, hb.2.2⟩
            · exact Finset.mem_filter.mpr ⟨hqueue a haq, hae⟩
            · simp
          have hnext : ∀ b ∈ rest ++ succ a, b ∈ domain := by
            intro b hb
            rcases List.mem_append.mp hb with hb | hb
            · exact hqueue b (hmem b (List.mem_cons_of_mem a hb)).1
            · exact hclosed a (hqueue a haq) b hb
          obtain ⟨order, t⟩ := ih _ hlt hnext rfl
          exact ⟨a :: order, .visit hfirst t⟩

/-- **The queue is worked off in breadth-first order**, as many levels as there
are entries left being enough. -/
theorem eq_breadthFirst {levels : ℕ}
    (hclosed : ∀ a ∈ domain, ∀ b ∈ succ a, b ∈ domain)
    (hqueue : ∀ a ∈ queue, a ∈ domain)
    (hlevels : (domain.filter (· ∉ expanded)).card ≤ levels)
    (t : Traversal succ expanded queue order) :
    order = breadthFirst succ levels expanded queue := by
  induction levels generalizing expanded queue order with
  | zero =>
      have hall : ∀ a ∈ queue, a ∈ expanded := by
        intro a ha
        by_contra hnot
        have hleft : a ∈ domain.filter (· ∉ expanded) :=
          Finset.mem_filter.mpr ⟨hqueue a ha, hnot⟩
        have := Finset.card_pos.mpr ⟨a, hleft⟩
        omega
      cases t with
      | nil _ => rfl
      | visit hfirst _ =>
          have hmem := List.mem_filter.mp (hfirst ▸ List.mem_cons_self)
          exact absurd (hall _ hmem.1) (by simpa using hmem.2)
  | succ levels ih =>
      rw [← List.append_nil queue] at t
      obtain ⟨order', rfl, t'⟩ := t.split_level
      rw [List.nil_append] at t'
      rw [breadthFirst]
      congr 1
      cases hnew : firsts expanded queue with
      | nil =>
          rw [hnew] at t'
          cases t' with
          | nil _ => simp
          | visit hfirst _ => simp at hfirst
      | cons a rest =>
          rw [hnew] at t'
          have hmem : ∀ b ∈ a :: rest, b ∈ domain ∧ b ∉ expanded := fun b hb =>
            ⟨hqueue b (mem_firsts.mp (hnew ▸ hb)).1, (mem_firsts.mp (hnew ▸ hb)).2⟩
          refine ih (fun b hb => ?_) ?_ t'
          · obtain ⟨c, hc, hb⟩ := List.mem_flatMap.mp hb
            exact hclosed c (hmem c hc).1 b hb
          · have hlt : (domain.filter (· ∉ a :: rest ++ expanded)).card
                < (domain.filter (· ∉ expanded)).card := by
              refine Finset.card_lt_card (Finset.ssubset_iff_of_subset ?_ |>.mpr ⟨a, ?_, ?_⟩)
              · intro b hb
                simp only [Finset.mem_filter, List.mem_append, not_or] at hb ⊢
                exact ⟨hb.1, hb.2.2⟩
              · exact Finset.mem_filter.mpr (hmem a List.mem_cons_self)
              · simp
            omega

end Closed

end Traversal

end Foundations
