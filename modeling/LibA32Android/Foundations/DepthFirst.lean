/-
Depth-first walks.

`DepthFirst succ seen work pre post` says that a walk which starts from the
entries of `work` in order, and passes over entries that were seen, discovers
`pre` and finishes `post`, each in order.  An entry is marked when it is
discovered, so that a cycle is passed over while it is being walked.

* `DepthFirst.perm`, `DepthFirst.nodup`, `DepthFirst.notMem_seen`: every new entry
  is discovered once and finished once;
* `DepthFirst.mem_iff`: from a single root the walk finds what is reachable;
* `DepthFirst.finished_before`: an entry that does not lead back is finished
  before the entry that led to it.
-/
import Mathlib

namespace Foundations

open scoped List

variable {α : Type}

/-- A depth-first walk, with the entries in the order of discovery and in the
order of completion. -/
inductive DepthFirst (succ : α → List α) : Set α → List α → List α → List α → Prop
  | nil (seen : Set α) : DepthFirst succ seen [] [] []
  | skip {seen : Set α} {v : α} {work pre post : List α} (hv : v ∈ seen)
      (hwork : DepthFirst succ seen work pre post) : DepthFirst succ seen (v :: work) pre post
  | visit {seen : Set α} {v : α} {work pre₁ post₁ pre₂ post₂ : List α} (hv : v ∉ seen)
      (hsucc : DepthFirst succ (insert v seen) (succ v) pre₁ post₁)
      (hwork : DepthFirst succ (insert v seen ∪ {x | x ∈ pre₁}) work pre₂ post₂) :
      DepthFirst succ seen (v :: work) (v :: pre₁ ++ pre₂) (post₁ ++ v :: post₂)

/-- `w` can be reached from `v`. -/
abbrev Reaches (succ : α → List α) : α → α → Prop :=
  Relation.ReflTransGen fun v w => w ∈ succ v

namespace DepthFirst

variable {succ : α → List α} {seen : Set α} {work pre post : List α}

/-- What is discovered is finished. -/
lemma perm (h : DepthFirst succ seen work pre post) : pre.Perm post := by
  induction h with
  | nil => exact .refl _
  | skip hv _ ih => exact ih
  | @visit seen v work pre₁ post₁ pre₂ post₂ hv _ _ ih₁ ih₂ =>
      calc v :: pre₁ ++ pre₂ = v :: (pre₁ ++ pre₂) := List.cons_append
        _ ~ v :: (post₁ ++ post₂) := (ih₁.append ih₂).cons v
        _ ~ post₁ ++ v :: post₂ := List.perm_middle.symm

lemma mem_post (h : DepthFirst succ seen work pre post) {x : α} : x ∈ post ↔ x ∈ pre :=
  h.perm.mem_iff.symm

/-- Only new entries are discovered. -/
lemma notMem_seen (h : DepthFirst succ seen work pre post) : ∀ x ∈ pre, x ∉ seen := by
  induction h with
  | nil => exact fun x hx => absurd hx List.not_mem_nil
  | skip hv _ ih => exact ih
  | @visit seen v work pre₁ post₁ pre₂ post₂ hv _ _ ih₁ ih₂ =>
      intro x hx hseen
      rcases List.mem_append.mp hx with hx | hx
      · rcases List.mem_cons.mp hx with rfl | hx
        · exact hv hseen
        · exact ih₁ x hx (Set.mem_insert_of_mem v hseen)
      · exact ih₂ x hx (Or.inl (Set.mem_insert_of_mem v hseen))

/-- An entry is discovered at most once. -/
lemma nodup (h : DepthFirst succ seen work pre post) : pre.Nodup := by
  induction h with
  | nil => exact List.nodup_nil
  | skip hv _ ih => exact ih
  | @visit seen v work pre₁ post₁ pre₂ post₂ hv hsucc hwork ih₁ ih₂ =>
      rw [List.nodup_append, List.nodup_cons]
      refine ⟨⟨fun hmem => ?_, ih₁⟩, ih₂, ?_⟩
      · exact hsucc.notMem_seen v hmem (Set.mem_insert v seen)
      · rintro x hx y hy rfl
        rcases List.mem_cons.mp hx with rfl | hx
        · exact hwork.notMem_seen x hy (Or.inl (Set.mem_insert x seen))
        · exact hwork.notMem_seen x hy (Or.inr hx)

/-- The entries started from have been seen in the end. -/
lemma work_seen (h : DepthFirst succ seen work pre post) :
    ∀ v ∈ work, v ∈ seen ∨ v ∈ pre := by
  induction h with
  | nil => exact fun v hv => absurd hv List.not_mem_nil
  | skip hv _ ih =>
      intro w hw
      rcases List.mem_cons.mp hw with rfl | hw
      · exact Or.inl hv
      · exact ih w hw
  | @visit seen v work pre₁ post₁ pre₂ post₂ hv _ _ ih₁ ih₂ =>
      intro w hw
      rcases List.mem_cons.mp hw with rfl | hw
      · exact Or.inr (by simp)
      · rcases ih₂ w hw with ((rfl | hw) | hw) | hw
        · exact Or.inr (by simp)
        · exact Or.inl hw
        · exact Or.inr (List.mem_append_left _ (List.mem_cons_of_mem v hw))
        · exact Or.inr (List.mem_append_right _ hw)

/-- So have the successors of every new entry. -/
lemma closed (h : DepthFirst succ seen work pre post) :
    ∀ u ∈ pre, ∀ w ∈ succ u, w ∈ seen ∨ w ∈ pre := by
  induction h with
  | nil => exact fun u hu => absurd hu List.not_mem_nil
  | skip hv _ ih => exact ih
  | @visit seen v work pre₁ post₁ pre₂ post₂ hv hsucc _ ih₁ ih₂ =>
      -- seen on the way to `v` or below it, or new behind it
      have hplace : ∀ {w : α}, (w ∈ insert v seen ∨ w ∈ pre₁) ∨ w ∈ pre₂ →
          w ∈ seen ∨ w ∈ v :: pre₁ ++ pre₂ := by
        rintro w (((rfl | hw) | hw) | hw)
        · exact Or.inr (by simp)
        · exact Or.inl hw
        · exact Or.inr (List.mem_append_left _ (List.mem_cons_of_mem v hw))
        · exact Or.inr (List.mem_append_right _ hw)
      intro u hu w hw
      rcases List.mem_append.mp hu with hu | hu
      · rcases List.mem_cons.mp hu with rfl | hu
        · exact hplace (Or.inl (hsucc.work_seen w hw))
        · exact hplace (Or.inl (ih₁ u hu w hw))
      · exact hplace (ih₂ u hu w hw)

/-- New entries are reachable from where the walk started. -/
lemma reaches (h : DepthFirst succ seen work pre post) :
    ∀ x ∈ pre, ∃ v ∈ work, Reaches succ v x := by
  induction h with
  | nil => exact fun x hx => absurd hx List.not_mem_nil
  | skip hv _ ih =>
      intro x hx
      obtain ⟨w, hw, hreach⟩ := ih x hx
      exact ⟨w, List.mem_cons_of_mem _ hw, hreach⟩
  | @visit seen v work pre₁ post₁ pre₂ post₂ hv _ _ ih₁ ih₂ =>
      intro x hx
      rcases List.mem_append.mp hx with hx | hx
      · rcases List.mem_cons.mp hx with rfl | hx
        · exact ⟨x, List.mem_cons_self, .refl⟩
        · obtain ⟨w, hw, hreach⟩ := ih₁ x hx
          exact ⟨v, List.mem_cons_self, .head hw hreach⟩
      · obtain ⟨w, hw, hreach⟩ := ih₂ x hx
        exact ⟨w, List.mem_cons_of_mem _ hw, hreach⟩

/-- **From a root the walk finds exactly what is reachable.** -/
theorem mem_iff {root : α} (h : DepthFirst succ ∅ [root] pre post) {x : α} :
    x ∈ pre ↔ Reaches succ root x := by
  constructor
  · intro hx
    obtain ⟨v, hv, hreach⟩ := h.reaches x hx
    rwa [List.mem_singleton.mp hv] at hreach
  · intro hreach
    induction hreach with
    | refl => exact (h.work_seen root List.mem_cons_self).resolve_left (Set.notMem_empty root)
    | @tail u w _ hw ih => exact (h.closed u ih w hw).resolve_left (Set.notMem_empty w)

/-- A successor is finished before its predecessor, unless it was seen before
the walk or leads back to the predecessor. -/
lemma finished_before (h : DepthFirst succ seen work pre post) {u w : α} {before after : List α}
    (hpost : post = before ++ u :: after) (hw : w ∈ succ u) :
    w ∈ seen ∨ w ∈ before ∨ Reaches succ w u := by
  induction h generalizing before after with
  | nil => simp at hpost
  | skip hv _ ih => exact ih hpost
  | @visit seen v work pre₁ post₁ pre₂ post₂ hv hsucc hwork ih₁ ih₂ =>
      -- the successors of `v` are walked before it is finished
      have hself : w ∈ succ v → w ∈ seen ∨ w ∈ post₁ ∨ Reaches succ w v := by
        intro hw
        rcases hsucc.work_seen w hw with (rfl | hseen) | hmem
        · exact Or.inr (Or.inr .refl)
        · exact Or.inl hseen
        · exact Or.inr (Or.inl (hsucc.mem_post.mpr hmem))
      rcases List.append_eq_append_iff.mp hpost with ⟨rest, rfl, hrest⟩ | ⟨rest, rfl, hrest⟩
      · rcases List.cons_eq_append_iff.mp hrest with ⟨rfl, hcons⟩ | ⟨rest', rfl, rfl⟩
        · cases hcons
          rw [List.append_nil]
          exact hself hw
        · -- `u` is finished after `v`
          rcases ih₂ rfl with ((rfl | hseen) | hmem) | hbefore | hreach
          · exact Or.inr (Or.inl (by simp))
          · exact Or.inl hseen
          · exact Or.inr (Or.inl (List.mem_append_left _ (hsucc.mem_post.mpr hmem)))
          · exact Or.inr (Or.inl (by simp [hbefore]))
          · exact Or.inr (Or.inr hreach)
      · rcases List.cons_eq_append_iff.mp hrest with ⟨rfl, hcons⟩ | ⟨rest', rfl, rfl⟩
        · cases hcons
          rw [List.append_nil] at hself
          exact hself hw
        · -- `u` is finished below `v`, so `v` leads to it
          rcases ih₁ rfl with (rfl | hseen) | hbefore | hreach
          · have hu : u ∈ pre₁ := hsucc.mem_post.mp (by simp)
            obtain ⟨v, hv, hreach⟩ := hsucc.reaches u hu
            exact Or.inr (Or.inr (.head hv hreach))
          · exact Or.inl hseen
          · exact Or.inr (Or.inl hbefore)
          · exact Or.inr (Or.inr hreach)

/-- The root is finished last. -/
lemma root_last {root : α} (hroot : root ∉ seen) (h : DepthFirst succ seen [root] pre post) :
    ∃ rest, post = rest ++ [root] := by
  cases h with
  | skip hv _ => exact absurd hv hroot
  | visit hv hsucc hwork =>
      cases hwork
      exact ⟨_, rfl⟩

/-- A walk from one entry, and then from the others. -/
lemma cons {v : α} {pre₁ post₁ pre₂ post₂ : List α} (h₁ : DepthFirst succ seen [v] pre₁ post₁)
    (h₂ : DepthFirst succ (seen ∪ {x | x ∈ pre₁}) work pre₂ post₂) :
    DepthFirst succ seen (v :: work) (pre₁ ++ pre₂) (post₁ ++ post₂) := by
  cases h₁ with
  | skip hv hwork =>
      cases hwork
      have hsame : seen ∪ {x | x ∈ ([] : List α)} = seen := by ext x; simp
      rw [hsame] at h₂
      exact .skip hv h₂
  | @visit _ _ _ p q _ _ hv hsucc hwork =>
      cases hwork
      have hsame : seen ∪ {x | x ∈ v :: p ++ []} = insert v seen ∪ {x | x ∈ p} := by
        ext x
        simp only [List.append_nil, List.mem_cons, Set.mem_union, Set.mem_ofPred_eq,
          Set.mem_insert_iff]
        tauto
      rw [hsame] at h₂
      have hvisit := DepthFirst.visit hv hsucc h₂
      simpa using hvisit

end DepthFirst

end Foundations
