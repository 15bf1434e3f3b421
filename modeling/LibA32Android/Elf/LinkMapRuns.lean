/-
Link maps over whole runs of appends.

* `recordRoot_indices`, `promoted_recordRoot`: the root list keeps its indices
  distinct and remembers every promotion;
* `insertScope`, `recordGlobal_eq`: recording keeps the scope increasing and adds
  one index;
* `LinkMapOk.reuse`, `LinkMapOk.append`: both successful ends of an append keep
  the invariant that the next append checks;
* `linkMapRun_invariant`: what holds after any finite sequence of calls on an
  initially empty map.
-/
import LibA32Android.Elf.GraphTransaction

namespace LibA32Android

open Foundations

/-! ### Roots -/

section Roots

variable (rootPolicy : Elf32LinkMapRootPolicy) (index : ℕ)

lemma recordRoot_indices (roots : List Elf32LinkMapRoot) :
    (recordRoot rootPolicy index roots).map (·.objectIndex)
      = if index ∈ roots.map (·.objectIndex) then roots.map (·.objectIndex)
        else roots.map (·.objectIndex) ++ [index] := by
  induction roots with
  | nil => rfl
  | cons record roots ih =>
      rw [recordRoot]
      by_cases h : record.objectIndex = index
      · have hmem : index ∈ (record :: roots).map (·.objectIndex) :=
          List.mem_map.mpr ⟨record, List.mem_cons_self, h⟩
        rw [if_pos h, if_pos hmem]
        split <;> rfl
      · rw [if_neg h, List.map_cons, ih]
        by_cases hmem : index ∈ roots.map (·.objectIndex)
        · rw [if_pos hmem, if_pos (by simpa using Or.inr (by simpa using hmem)), List.map_cons]
        · rw [if_neg hmem, if_neg (by simpa [Ne.symm h] using hmem), List.map_cons,
            List.cons_append]

/-- A promotion is recorded, and none is lost. -/
lemma promoted_recordRoot (roots : List Elf32LinkMapRoot) (i : ℕ) :
    promoted (recordRoot rootPolicy index roots) i = true
      ↔ promoted roots i = true ∨ rootPolicy = .global ∧ i = index := by
  simp only [promoted, decide_eq_true_eq]
  induction roots with
  | nil => simp [recordRoot, and_comm, eq_comm]
  | cons record roots ih =>
      rw [recordRoot]
      by_cases h : record.objectIndex = index
      · rw [if_pos h]
        by_cases hpolicy : rootPolicy = .global
        · simp only [hpolicy, if_true, List.mem_cons, exists_eq_or_imp, true_and, h, and_true]
          grind
        · simp [hpolicy]
      · rw [if_neg h]
        simp only [List.mem_cons, exists_eq_or_imp, ih, or_assoc]

lemma recordRoot_named {rootPolicy : Elf32LinkMapRootPolicy} {index : ℕ}
    (hpolicy : rootPolicy.Named) {roots : List Elf32LinkMapRoot}
    (h : ∀ record ∈ roots, record.policy.Named) :
    ∀ record ∈ recordRoot rootPolicy index roots, record.policy.Named := by
  induction roots with
  | nil => simpa [recordRoot] using hpolicy
  | cons record roots ih =>
      obtain ⟨hrecord, hroots⟩ := List.forall_mem_cons.mp h
      rw [recordRoot]
      split
      · refine List.forall_mem_cons.mpr ⟨?_, hroots⟩
        split
        · exact .inr rfl
        · exact hrecord
      · exact List.forall_mem_cons.mpr ⟨hrecord, ih hroots⟩

end Roots

/-! ### The global scope -/

/-- What recording an object does to the scope. -/
def insertScope (scope : List ℕ) (index : ℕ) : List ℕ :=
  if index ∈ scope then scope else scope.orderedInsert (· ≤ ·) index

lemma mem_insertScope {scope : List ℕ} {index i : ℕ} :
    i ∈ insertScope scope index ↔ i = index ∨ i ∈ scope := by
  rw [insertScope]
  split
  · rename_i h
    exact ⟨Or.inr, fun hi => hi.elim (fun hi => hi ▸ h) id⟩
  · rw [List.mem_orderedInsert]

lemma insertScope_increasing {scope : List ℕ} (h : scope.Pairwise (· < ·)) (index : ℕ) :
    (insertScope scope index).Pairwise (· < ·) := by
  rw [insertScope]
  split
  · exact h
  rename_i hnew
  induction scope with
  | nil => exact List.pairwise_singleton _ _
  | cons a scope ih =>
      obtain ⟨hfirst, hrest⟩ := List.pairwise_cons.mp h
      rw [List.orderedInsert_cons]
      split
      · rename_i hle
        have hlt : index < a := lt_of_le_of_ne hle fun heq => hnew (by simp [heq])
        refine List.pairwise_cons.mpr ⟨fun b hb => ?_, h⟩
        rcases List.mem_cons.mp hb with rfl | hb
        · exact hlt
        · exact hlt.trans (hfirst b hb)
      · rename_i hgt
        refine List.pairwise_cons.mpr ⟨fun b hb => ?_, ih hrest fun hmem => hnew (by simp [hmem])⟩
        rcases (List.mem_orderedInsert _).mp hb with rfl | hb
        · exact not_le.mp hgt
        · exact hfirst b hb

lemma foldl_insertScope_increasing {scope : List ℕ} (h : scope.Pairwise (· < ·))
    (indices : List ℕ) : (indices.foldl insertScope scope).Pairwise (· < ·) := by
  induction indices generalizing scope with
  | nil => exact h
  | cons index indices ih => exact ih (insertScope_increasing h index)

lemma mem_foldl_insertScope {scope indices : List ℕ} {i : ℕ} :
    i ∈ indices.foldl insertScope scope ↔ i ∈ scope ∨ i ∈ indices := by
  induction indices generalizing scope with
  | nil => simp
  | cons index indices ih =>
      rw [List.foldl_cons, ih, mem_insertScope, List.mem_cons]
      tauto

lemma scopeMarks_congr {n : ℕ} {scope scope' : List ℕ} (h : ∀ i, i ∈ scope ↔ i ∈ scope') :
    scopeMarks n scope = scopeMarks n scope' :=
  marks_congr fun i _ => by simp only [h i]

/-- Recording, on marks that belong to the scope. -/
lemma recordGlobal_eq {n n' index : ℕ} {scope : List ℕ} (hle : n ≤ n')
    (hscope : ∀ i ∈ scope, i < n) (hindex : index < n') :
    recordGlobal n' index (scopeMarks n scope, scope)
      = (scopeMarks n' (insertScope scope index), insertScope scope index) := by
  have hresize : scopeMarks n scope ++ List.replicate (n' - (scopeMarks n scope).length) false
      = scopeMarks n' scope := by
    rw [scopeMarks, marks_length]
    exact marks_resize hle fun i hi => by simpa using fun hmem => absurd (hscope i hmem) (by omega)
  have hmark : (scopeMarks n' scope).getD index false = decide (index ∈ scope) :=
    marks_getD hindex _
  simp only [recordGlobal, hresize, hmark]
  by_cases hmem : index ∈ scope
  · simp [insertScope, hmem]
  · have hset : (scopeMarks n' scope).set index true
        = scopeMarks n' (scope.orderedInsert (· ≤ ·) index) := by
      rw [scopeMarks, marks_set, update_mem]
      refine scopeMarks_congr fun i => ?_
      rw [List.mem_orderedInsert, List.mem_append, List.mem_singleton, or_comm]
    simp [insertScope, hmem, hset]

lemma foldl_recordGlobal_eq {n n' : ℕ} {scope indices : List ℕ} (hle : n ≤ n')
    (hscope : ∀ i ∈ scope, i < n) (hindices : ∀ i ∈ indices, i < n') :
    (indices.foldl (fun s index => recordGlobal n' index s) (scopeMarks n scope, scope)).2
      = indices.foldl insertScope scope := by
  induction indices generalizing n scope with
  | nil => rfl
  | cons index indices ih =>
      have hindex := hindices index (by simp)
      rw [List.foldl_cons, List.foldl_cons, recordGlobal_eq hle hscope hindex]
      refine ih le_rfl (fun i hi => ?_) fun i hi => hindices i (List.mem_cons_of_mem _ hi)
      rcases mem_insertScope.mp hi with rfl | hi
      · exact hindex
      · exact (hscope i hi).trans_le hle

/-! ### One append -/

lemma globalFlag_of_kept {objects objects' : List Elf32LoadedDependencyObject}
    (h : objects <+: objects') {i : ℕ} (hi : i < objects.length) :
    globalFlag objects' i = globalFlag objects i := by
  obtain ⟨rest, rfl⟩ := h
  rw [globalFlag, globalFlag, List.getD_eq_getElem?_getD, List.getElem?_append_left hi,
    List.getD_eq_getElem?_getD]

section Append

variable {linkMap linkMap' : Elf32LinkMap} {rootPolicy : Elf32LinkMapRootPolicy} {index : ℕ}

/-- A recorded append keeps the invariant: the root is recorded, and the scope
gets the root if the caller asks for it and every new object with the flag. -/
lemma LinkMapOk.record (h : LinkMapOk linkMap) (indices : List ℕ)
    (hgraph : GraphOk linkMap'.graph.objects)
    (hkept : linkMap.graph.objects <+: linkMap'.graph.objects)
    (hindex : index < linkMap'.graph.objects.length)
    (hpolicy : rootPolicy.Named)
    (hroots : linkMap'.roots = recordRoot rootPolicy index linkMap.roots)
    (hscope : linkMap'.globalScopeObjects = indices.foldl insertScope linkMap.globalScopeObjects)
    (hsound : ∀ i ∈ indices, i < linkMap'.graph.objects.length
      ∧ (globalFlag linkMap'.graph.objects i = true ∨ rootPolicy = .global ∧ i = index))
    (hcaller : rootPolicy = .global → index ∈ indices)
    (hflag : ∀ i, linkMap.graph.objects.length ≤ i → i < linkMap'.graph.objects.length →
      globalFlag linkMap'.graph.objects i = true → i ∈ indices) : LinkMapOk linkMap' := by
  have hle := hkept.length_le
  have hindices := recordRoot_indices rootPolicy index linkMap.roots
  refine ⟨hgraph, ?_, ?_, ?_, ?_, fun i => ?_⟩
  · -- the recorded indices are the old ones and the new root
    have hall : ∀ i ∈ linkMap'.roots.map (·.objectIndex), i < linkMap'.graph.objects.length := by
      rw [hroots, hindices]
      have hold : ∀ i ∈ linkMap.roots.map (·.objectIndex), i < linkMap'.graph.objects.length :=
        List.forall_mem_map.mpr fun record hmem => (h.roots_lt record hmem).trans_le hle
      split
      · exact hold
      · exact List.forall_mem_append.mpr ⟨hold, by simpa using hindex⟩
    exact List.forall_mem_map.mp hall
  · rw [hroots, hindices]
    split
    · exact h.roots_distinct
    · rename_i hnew
      exact List.nodup_append.mpr ⟨h.roots_distinct, List.nodup_singleton _,
        fun a ha b hb heq => hnew (by rwa [← List.mem_singleton.mp hb, ← heq])⟩
  · rw [hroots]
    exact recordRoot_named hpolicy h.roots_named
  · rw [hscope]
    exact foldl_insertScope_increasing h.scope_increasing indices
  · rw [hscope, mem_foldl_insertScope, h.mem_scope, Bool.or_eq_true, Bool.or_eq_true, hroots,
      promoted_recordRoot]
    constructor
    · rintro (⟨hlt, hold⟩ | hnew)
      · rw [← globalFlag_of_kept hkept hlt] at hold
        exact ⟨hlt.trans_le hle, hold.imp_right Or.inl⟩
      · obtain ⟨hlt, hwhy⟩ := hsound i hnew
        exact ⟨hlt, hwhy.imp_right Or.inr⟩
    · rintro ⟨hlt, hwhy⟩
      by_cases hold : i < linkMap.graph.objects.length
      · rw [globalFlag_of_kept hkept hold] at hwhy
        rcases hwhy with hwhy | hwhy | ⟨hpolicy, rfl⟩
        · exact Or.inl ⟨hold, Or.inl hwhy⟩
        · exact Or.inl ⟨hold, Or.inr hwhy⟩
        · exact Or.inr (hcaller hpolicy)
      · rcases hwhy with hwhy | hwhy | ⟨hpolicy, rfl⟩
        · exact Or.inr (hflag i (not_lt.mp hold) hlt hwhy)
        · -- a promoted index was recorded, so it is old
          obtain ⟨record, hmem, rfl, -⟩ := decide_eq_true_eq.mp hwhy
          exact absurd (h.roots_lt record hmem) hold
        · exact Or.inr (hcaller hpolicy)

/-- An append that reuses an object. -/
lemma LinkMapOk.reuse (h : LinkMapOk linkMap) (hpolicy : rootPolicy.Named)
    (hindex : index < linkMap.graph.objects.length) :
    LinkMapOk { linkMap with
      roots := recordRoot rootPolicy index linkMap.roots
      globalScopeObjects :=
        if rootPolicy = .global ∨ globalFlag linkMap.graph.objects index then
          (recordGlobal linkMap.graph.objects.length index
            (scopeMarks linkMap.graph.objects.length linkMap.globalScopeObjects,
              linkMap.globalScopeObjects)).2
        else linkMap.globalScopeObjects } := by
  have hlt : ∀ i ∈ linkMap.globalScopeObjects, i < linkMap.graph.objects.length :=
    fun i hi => ((h.mem_scope i).mp hi).1
  by_cases hglobal : rootPolicy = .global ∨ globalFlag linkMap.graph.objects index
  · refine h.record [index] h.graph List.prefix_rfl hindex hpolicy rfl ?_ ?_ ?_ ?_
    · simp only [if_pos hglobal, recordGlobal_eq le_rfl hlt hindex]
      rfl
    · intro i hi
      rw [List.mem_singleton.mp hi]
      exact ⟨hindex, hglobal.symm.imp_right fun hpolicy => ⟨hpolicy, rfl⟩⟩
    · exact fun _ => List.mem_singleton_self index
    · exact fun i hle hlt => absurd hlt (not_lt.mpr hle)
  · refine h.record [] h.graph List.prefix_rfl hindex hpolicy rfl ?_ ?_ ?_ ?_
    · simp only [if_neg hglobal]
      rfl
    · exact fun i hi => absurd hi List.not_mem_nil
    · exact fun hpolicy => absurd (Or.inl hpolicy) hglobal
    · exact fun i hle hlt => absurd hlt (not_lt.mpr hle)

/-- An append that loads objects behind those of the link map. -/
lemma LinkMapOk.append (h : LinkMapOk linkMap) (hpolicy : rootPolicy.Named)
    {graph : Elf32DependencyGraph}
    (hgraph : GraphOk graph.objects) (hkept : linkMap.graph.objects <+: graph.objects)
    (hroot : linkMap.graph.objects.length < graph.objects.length)
    (objectIndices : List (ByteString × ℕ)) :
    LinkMapOk (recordAppend linkMap ⟨objectIndices,
      scopeMarks linkMap.graph.objects.length linkMap.globalScopeObjects⟩ rootPolicy graph) := by
  have hlt : ∀ i ∈ linkMap.globalScopeObjects, i < linkMap.graph.objects.length :=
    fun i hi => ((h.mem_scope i).mp hi).1
  have hnew : ∀ i, i ∈ (List.range' linkMap.graph.objects.length
        (graph.objects.length - linkMap.graph.objects.length)).filter (fun objectIndex =>
          (objectIndex = linkMap.graph.objects.length ∧ rootPolicy = .global)
            ∨ (graph.objects.getD objectIndex default).linkerMetadata.global)
      ↔ (linkMap.graph.objects.length ≤ i ∧ i < graph.objects.length)
        ∧ (i = linkMap.graph.objects.length ∧ rootPolicy = .global
          ∨ globalFlag graph.objects i = true) := by
    intro i
    rw [List.mem_filter, List.mem_range'_1, decide_eq_true_eq, globalFlag]
    refine and_congr_left fun _ => and_congr_right fun hle => ?_
    omega
  refine h.record _ hgraph hkept hroot hpolicy rfl
    (foldl_recordGlobal_eq hkept.length_le hlt ?_) ?_ ?_ ?_
  · exact fun i hi => ((hnew i).mp hi).1.2
  · intro i hi
    obtain ⟨⟨-, hi⟩, hwhy⟩ := (hnew i).mp hi
    exact ⟨hi, hwhy.symm.imp_right And.symm⟩
  · exact fun hpolicy => (hnew _).mpr ⟨⟨le_rfl, hroot⟩, Or.inl ⟨rfl, hpolicy⟩⟩
  · exact fun i hle hi hwhy => (hnew i).mpr ⟨⟨hle, hi⟩, Or.inr hwhy⟩

end Append

/-! ### Runs -/

/-- The object that a successful append with policy `Global` had as its root. -/
def globalRoot (rootPolicy : Elf32LinkMapRootPolicy) (result : Elf32DependencyLoadResult) :
    Set ℕ :=
  {i | rootPolicy = .global ∧ result.failure = none ∧ result.rootObjectIndex = some i}

lemma mem_globalRoot_some {rootPolicy : Elf32LinkMapRootPolicy}
    {result : Elf32DependencyLoadResult} {i j : ℕ} (hok : result.failure = none)
    (hroot : result.rootObjectIndex = some j) :
    i ∈ globalRoot rootPolicy result ↔ rootPolicy = .global ∧ i = j := by
  simp only [globalRoot, Set.mem_ofPred_eq, hok, hroot, Option.some_inj, true_and]
  exact and_congr_right fun _ => eq_comm

section Outcome

variable {P : Type} {memory : MappedGuestMemory} {linkMap : Elf32LinkMap}
  {root : Elf32DependencyLoadSource} {provider : P} {rootPolicy : Elf32LinkMapRootPolicy}
  {result : Elf32DependencyLoadResult × Elf32LinkMap × MappedGuestMemory × P}

/-- One append, however it ends: the graph stays well formed, exactly the promotion
asked for is recorded, the objects stay, and a valid map was not refused. -/
lemma AppendOutcome.keeps (h : AppendOutcome memory linkMap root provider rootPolicy result) :
    (GraphOk linkMap.graph.objects → GraphOk result.2.1.graph.objects)
      ∧ (∀ i, promoted result.2.1.roots i = true
          ↔ promoted linkMap.roots i = true ∨ i ∈ globalRoot rootPolicy result.1)
      ∧ linkMap.graph.objects <+: result.2.1.graph.objects
      ∧ (LinkMapOk linkMap → ∀ failure ∈ result.1.failure, failure.error ≠ .invalidLinkMap) := by
  cases h with
  | refused failure herror =>
      refine ⟨id, fun i => by simp [globalRoot], List.prefix_rfl, fun hok f hf => ?_⟩
      cases hf
      exact herror hok
  | reused _ rootIndex hroot =>
      refine ⟨id, fun i => ?_, List.prefix_rfl, fun _ f hf => by cases hf⟩
      rw [promoted_recordRoot, mem_globalRoot_some rfl rfl]
  | failed _ failure ctx hctx =>
      refine ⟨id, fun i => by simp [globalRoot, rollbackFailure], List.prefix_rfl,
        fun _ f hf => ?_⟩
      -- a failing rollback replaces the error by its own
      simp only [rollbackFailure, Option.mem_def, Option.some_inj] at hf
      rw [← hf]
      split
      · exact hctx.error
      · simp
  | appended _ ctx hctx hroot =>
      refine ⟨fun _ => hctx.graph.ok, fun i => ?_, hctx.graph.kept, fun _ f hf => by cases hf⟩
      rw [recordAppend, promoted_recordRoot, mem_globalRoot_some rfl rfl]

/-- With a named policy the map satisfies the invariant that the next append checks. -/
lemma AppendOutcome.linkMapOk (h : AppendOutcome memory linkMap root provider rootPolicy result)
    (hpolicy : rootPolicy.Named) (hok : LinkMapOk linkMap) : LinkMapOk result.2.1 := by
  cases h with
  | refused failure herror => exact hok
  | reused _ rootIndex hroot =>
      obtain ⟨object, hobject, -⟩ := sources_getElem?.mp hroot
      exact hok.reuse hpolicy (List.getElem?_eq_some_iff.mp hobject).1
  | failed _ failure ctx hctx => exact hok
  | appended _ ctx hctx hroot =>
      exact hok.append hpolicy hctx.graph.ok hctx.graph.kept hctx.graph.root _

/-- A successful append reports the object that has the identity and the image of its
root. -/
lemma AppendOutcome.root_reported
    (h : AppendOutcome memory linkMap root provider rootPolicy result)
    (hsuccess : result.1.failure = none) :
    ∃ i object, result.1.rootObjectIndex = some i ∧ result.2.1.graph.objects[i]? = some object
      ∧ object.identity = root.identity ∧ object.image = root.image := by
  have hsource : ∃ i, result.1.rootObjectIndex = some i
      ∧ (sources result.2.1.graph.objects)[i]? = some ⟨root.identity, root.image⟩ := by
    cases h with
    | refused failure herror => cases hsuccess
    | reused _ rootIndex hroot => exact ⟨_, rfl, hroot⟩
    | failed _ failure ctx hctx => simp [rollbackFailure] at hsuccess
    | appended _ ctx hctx hroot => exact ⟨_, rfl, hroot⟩
  obtain ⟨i, hi, hsource⟩ := hsource
  obtain ⟨object, hobject, heq⟩ := sources_getElem?.mp hsource
  rw [Elf32LoadedDependencyObject.source, Elf32DependencySource.mk.injEq] at heq
  exact ⟨i, object, hi, hobject, heq⟩

end Outcome

/-- The link maps that finite sequences of appends lead to from an empty one,
with the roots of the successful appends with policy `Global`.  Each call has
its own memory, root, provider, options and named policy, and may fail. -/
inductive LinkMapRun : Elf32LinkMap → Set ℕ → Prop
  | empty : LinkMapRun {} ∅
  | append {P : Type} [Elf32DependencyProvider P] {linkMap : Elf32LinkMap} {globalRoots : Set ℕ}
      (hrun : LinkMapRun linkMap globalRoots) (memory : MappedGuestMemory)
      (root : Elf32DependencyLoadSource) (provider : P) (options : Elf32DependencyLoadOptions)
      (rootPolicy : Elf32LinkMapRootPolicy) (hpolicy : rootPolicy.Named) :
      LinkMapRun (appendElf32LinkMapRoot memory linkMap root provider options rootPolicy).2.1
        (globalRoots ∪ globalRoot rootPolicy
          (appendElf32LinkMapRoot memory linkMap root provider options rootPolicy).1)

lemma LinkMapOk.empty : LinkMapOk {} where
  graph := ⟨by simp [identities], by simp [identities], by simp⟩
  roots_lt := by simp
  roots_distinct := by simp
  roots_named := by simp
  scope_increasing := .nil
  mem_scope := by simp

/-- Every run keeps the invariant and remembers the promotions. -/
lemma LinkMapRun.ok {linkMap : Elf32LinkMap} {globalRoots : Set ℕ}
    (h : LinkMapRun linkMap globalRoots) :
    LinkMapOk linkMap ∧ ∀ i, promoted linkMap.roots i = true ↔ i ∈ globalRoots := by
  induction h with
  | empty => exact ⟨.empty, by simp [promoted]⟩
  | @append _ _ linkMap _ hrun memory root provider options rootPolicy hpolicy ih =>
      have houtcome :=
        appendElf32LinkMapRoot_outcome memory linkMap root provider options rootPolicy
      refine ⟨houtcome.linkMapOk hpolicy ih.1, fun i => ?_⟩
      rw [houtcome.keeps.2.1, ih.2, Set.mem_union]

/-- The scope of a run in terms of flags and promotions. -/
lemma LinkMapRun.mem_scope {linkMap : Elf32LinkMap} {globalRoots : Set ℕ}
    (h : LinkMapRun linkMap globalRoots) (i : ℕ) : i ∈ linkMap.globalScopeObjects ↔
      (∃ object, linkMap.graph.objects[i]? = some object ∧ object.linkerMetadata.global = true)
        ∨ i ∈ globalRoots := by
  obtain ⟨hok, hpromoted⟩ := h.ok
  rw [hok.mem_scope, Bool.or_eq_true, hpromoted, globalFlag, List.getD_eq_getElem?_getD]
  constructor
  · rintro ⟨hlt, hflag | hroot⟩
    · rw [List.getElem?_eq_getElem hlt] at hflag ⊢
      exact Or.inl ⟨_, rfl, hflag⟩
    · exact Or.inr hroot
  · rintro (⟨object, hobject, hflag⟩ | hroot)
    · obtain ⟨hlt, -⟩ := List.getElem?_eq_some_iff.mp hobject
      exact ⟨hlt, Or.inl (by rwa [hobject])⟩
    · obtain ⟨record, hmem, rfl, -⟩ := decide_eq_true_eq.mp ((hpromoted i).mpr hroot)
      exact ⟨hok.roots_lt record hmem, Or.inr hroot⟩

/-- **The invariant of link maps over whole runs.**  The last part is about any further
append: the objects stay, the map is not refused, and on success the reported root is the
object with the identity and the image of the root that was asked for. -/
theorem linkMapRun_invariant {linkMap : Elf32LinkMap} {globalRoots : Set ℕ}
    (h : LinkMapRun linkMap globalRoots) :
    (∀ object ∈ linkMap.graph.objects, object.identity ≠ [])
    ∧ (linkMap.graph.objects.map (·.identity)).Nodup
    ∧ (∀ object ∈ linkMap.graph.objects, ∀ edge ∈ object.dependencies,
        edge.requestedName ≠ [] ∧ edge.targetObject < linkMap.graph.objects.length)
    ∧ (linkMap.roots.map (·.objectIndex)).Nodup
    ∧ linkMap.globalScopeObjects.Pairwise (· < ·)
    ∧ (∀ i, i ∈ linkMap.globalScopeObjects ↔
        (∃ object, linkMap.graph.objects[i]? = some object ∧ object.linkerMetadata.global = true)
          ∨ i ∈ globalRoots)
    ∧ (∀ linkMap', LinkMapRun linkMap' globalRoots → linkMap'.graph = linkMap.graph →
        linkMap'.globalScopeObjects = linkMap.globalScopeObjects)
    ∧ ∀ (P : Type) [Elf32DependencyProvider P] (memory : MappedGuestMemory)
        (root : Elf32DependencyLoadSource) (provider : P) (options : Elf32DependencyLoadOptions)
        (rootPolicy : Elf32LinkMapRootPolicy),
        linkMap.graph.objects
            <+: (appendElf32LinkMapRoot memory linkMap root provider options
              rootPolicy).2.1.graph.objects
          ∧ (∀ failure ∈ (appendElf32LinkMapRoot memory linkMap root provider options
              rootPolicy).1.failure, failure.error ≠ .invalidLinkMap)
          ∧ ((appendElf32LinkMapRoot memory linkMap root provider options
              rootPolicy).1.failure = none →
            ∃ i object, (appendElf32LinkMapRoot memory linkMap root provider options
                rootPolicy).1.rootObjectIndex = some i
              ∧ (appendElf32LinkMapRoot memory linkMap root provider options
                rootPolicy).2.1.graph.objects[i]? = some object
              ∧ object.identity = root.identity ∧ object.image = root.image) := by
  obtain ⟨hok, -⟩ := h.ok
  refine ⟨fun object hmem hnil => hok.graph.named (hnil ▸ List.mem_map_of_mem hmem),
    hok.graph.distinct, hok.graph.edges, hok.roots_distinct, hok.scope_increasing, h.mem_scope,
    fun linkMap' h' hgraph => ?_, fun P _ memory root provider options rootPolicy => ?_⟩
  · -- increasing lists with the same members are equal
    have hok' := h'.ok.1
    refine List.Perm.eq_of_pairwise (fun a b _ _ hab hba => absurd hab (lt_asymm hba))
      hok'.scope_increasing hok.scope_increasing ?_
    refine (List.perm_ext_iff_of_nodup (hok'.scope_increasing.imp ne_of_lt)
      (hok.scope_increasing.imp ne_of_lt)).mpr fun i => ?_
    rw [h'.mem_scope, h.mem_scope, hgraph]
  · have houtcome := appendElf32LinkMapRoot_outcome memory linkMap root provider options rootPolicy
    obtain ⟨-, -, hkept, hvalid⟩ := houtcome.keeps
    exact ⟨hkept, hvalid hok, houtcome.root_reported⟩

/-- A local root with a dependency, promoted by a second append. -/
theorem linkMapRun_invariant_promotion : ∃ linkMap globalRoots,
    LinkMapRun linkMap globalRoots ∧ linkMap.globalScopeObjects = [0]
      ∧ linkMap.graph.objects.length = 2 ∧ (linkMap.roots.map (·.objectIndex)).Nodup := by
  let table : SourceTable := ⟨[([98], ⟨[98], tinyImage⟩)]⟩
  have hrun := (LinkMapRun.empty.append vacantMemory ⟨[97], needyImage⟩ table wideOptions
    .local (.inl rfl)).append vacantMemory ⟨[97], needyImage⟩ table wideOptions .global (.inr rfl)
  obtain ⟨-, -, -, hdistinct, -⟩ := linkMapRun_invariant hrun
  exact ⟨_, _, hrun, by decide +kernel, by decide +kernel, hdistinct⟩

end LibA32Android
