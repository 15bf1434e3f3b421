/-
What the validation of a link map accepts.

`LinkMapOk` is the invariant that `append_elf32_link_map_root` checks before it
uses a link map; `checkLinkMap_ok_iff` says that the four loops accept exactly
these maps and leave the identity index and the marks of the global scope.
-/
import LibA32Android.Elf.GraphInvariant
import LibA32Android.Elf.LinkMap
import LibA32Android.Foundations.Marks

namespace LibA32Android

open Foundations

/-- The object has `DF_1_GLOBAL` set. -/
def globalFlag (objects : List Elf32LoadedDependencyObject) (index : ℕ) : Bool :=
  (objects.getD index default).linkerMetadata.global

/-- A root record that promotes the object. -/
def promoted (roots : List Elf32LinkMapRoot) (index : ℕ) : Bool :=
  decide (∃ record ∈ roots, record.objectIndex = index ∧ record.policy = .global)

/-- The invariant of a link map. -/
structure LinkMapOk (linkMap : Elf32LinkMap) : Prop where
  graph : GraphOk linkMap.graph.objects
  roots_lt : ∀ record ∈ linkMap.roots, record.objectIndex < linkMap.graph.objects.length
  roots_distinct : (linkMap.roots.map (·.objectIndex)).Nodup
  roots_named : ∀ record ∈ linkMap.roots, record.policy.Named
  scope_increasing : linkMap.globalScopeObjects.Pairwise (· < ·)
  mem_scope : ∀ index, index ∈ linkMap.globalScopeObjects ↔
    index < linkMap.graph.objects.length
      ∧ (globalFlag linkMap.graph.objects index || promoted linkMap.roots index) = true

/-- The marks of a global scope. -/
def scopeMarks (objectCount : ℕ) (scope : List ℕ) : List Bool :=
  marks objectCount fun index => decide (index ∈ scope)

section Loops

variable {objects : List Elf32LoadedDependencyObject} {roots : List Elf32LinkMapRoot}
  {scope : List ℕ} {n : ℕ}

/-! ### The object loop -/

lemma checkObject_ok_iff {done : List (Elf32LoadedDependencyObject × ℕ)}
    {entry : Elf32LoadedDependencyObject × ℕ} {indices : List (ByteString × ℕ)} :
    checkObject n (done.map fun e => (e.1.identity, e.2)) entry = .ok indices
      ↔ (entry.1.identity ≠ [] ∧ entry.1.identity ∉ done.map (·.1.identity)
          ∧ ∀ edge ∈ entry.1.dependencies, edge.Ok n)
        ∧ indices = (done ++ [entry]).map fun e => (e.1.identity, e.2) := by
  have hknown : ((done.map fun e => (e.1.identity, e.2)).lookup entry.1.identity).isSome
      = true ↔ entry.1.identity ∈ done.map (·.1.identity) := by
    rw [← not_iff_not, Bool.not_eq_true, Option.isSome_eq_false_iff, Option.isNone_iff_eq_none,
      List.lookup_eq_none_iff, List.forall_mem_map, List.mem_map, not_exists]
    simp only [not_and, bne_iff_ne]
    exact forall₂_congr fun a _ => ne_comm
  have hedges : (¬∃ edge ∈ entry.1.dependencies, edge.requestedName = [] ∨ edge.targetObject ≥ n)
      ↔ ∀ edge ∈ entry.1.dependencies, edge.Ok n := by
    simp only [not_exists, not_and, not_or, not_le, ge_iff_le, Elf32DependencyEdge.Ok]
  rw [checkObject, refuse_bind_ok_iff, refuse_bind_ok_iff, hedges, not_or, hknown]
  constructor
  · rintro ⟨⟨hne, hnew⟩, hok, h⟩
    cases h
    refine ⟨⟨hne, hnew, hok⟩, ?_⟩
    rw [GraphLoadContext.emplace, if_neg (by rwa [hknown]), List.map_append]
    rfl
  · rintro ⟨⟨hne, hnew, hok⟩, rfl⟩
    refine ⟨⟨hne, hnew⟩, hok, ?_⟩
    rw [GraphLoadContext.emplace, if_neg (by rwa [hknown]), List.map_append]
    rfl

lemma zipIdx_map_identity (objects : List Elf32LoadedDependencyObject) :
    (objects.zipIdx.map fun e => (e.1.identity, e.2)) = identityIndex objects := by
  rw [identityIndex, identities, List.zipIdx_map]
  rfl

/-- The object loop accepts well-formed graphs and indexes them in order. -/
lemma checkObjects_ok_iff {indices : List (ByteString × ℕ)} :
    objects.zipIdx.foldlM (checkObject objects.length) [] = .ok indices
      ↔ GraphOk objects ∧ indices = identityIndex objects := by
  refine (foldlM_ok_iff (D := fun done => done.map fun e => (e.1.identity, e.2))
    fun done entry indices => checkObject_ok_iff).trans ?_
  rw [zipIdx_map_identity]
  refine and_congr_left fun _ => ?_
  have hfst : objects.zipIdx.map (·.1.identity) = identities objects := by
    calc objects.zipIdx.map (·.1.identity)
        = (objects.zipIdx.map Prod.fst).map (·.identity) := List.map_map.symm
      _ = identities objects := by rw [List.zipIdx_map_fst, identities]
  constructor
  · intro h
    have hmem : ∀ e ∈ objects.zipIdx, e.1.identity ≠ []
        ∧ ∀ edge ∈ e.1.dependencies, edge.Ok objects.length := by
      intro e he
      obtain ⟨done, rest, hsplit⟩ := List.append_of_mem he
      obtain ⟨hne, -, hedges⟩ := h done e rest hsplit
      exact ⟨hne, hedges⟩
    refine ⟨?_, ?_, ?_⟩
    · rw [← hfst]
      intro hnil
      obtain ⟨e, he, hid⟩ := List.mem_map.mp hnil
      exact (hmem e he).1 hid
    · rw [← hfst, List.Nodup, List.pairwise_map, pairwise_iff_split]
      intro done e rest hsplit b hb heq
      exact (h done e rest hsplit).2.1 (heq ▸ List.mem_map_of_mem hb)
    · intro object hobject
      obtain ⟨i, hi⟩ := List.mem_iff_getElem?.mp hobject
      exact (hmem (object, i) (List.mk_mem_zipIdx_iff_getElem?.mpr hi)).2
  · rintro ⟨hnamed, hdistinct, hedges⟩ done e rest hsplit
    have he : e ∈ objects.zipIdx := by simp [hsplit]
    refine ⟨fun hnil => hnamed ?_, fun hmem => ?_, hedges e.1 (List.fst_mem_of_mem_zipIdx he)⟩
    · rw [← hfst, ← hnil]
      exact List.mem_map_of_mem he
    · rw [← hfst, List.Nodup, List.pairwise_map, pairwise_iff_split] at hdistinct
      obtain ⟨b, hb, heq⟩ := List.mem_map.mp hmem
      exact hdistinct done e rest hsplit b hb heq

/-! ### The root loop -/

lemma update_mem (l : List ℕ) (i : ℕ) :
    Function.update (fun j => decide (j ∈ l)) i true = fun j => decide (j ∈ l ++ [i]) := by
  funext j
  by_cases h : j = i
  · subst h
    simp
  · simp [h]

lemma update_promoted {flag : ℕ → Bool} (roots : List Elf32LinkMapRoot)
    {record : Elf32LinkMapRoot} (h : record.policy = .global) :
    Function.update (fun i => flag i || promoted roots i) record.objectIndex true
      = fun i => flag i || promoted (roots ++ [record]) i := by
  funext j
  by_cases hj : j = record.objectIndex
  · subst hj
    simp [promoted, h]
  · simp [Function.update_of_ne hj, promoted, or_and_right, exists_or, Ne.symm hj]

lemma promoted_append_of_local (roots : List Elf32LinkMapRoot) {record : Elf32LinkMapRoot}
    (h : record.policy ≠ .global) (i : ℕ) : promoted (roots ++ [record]) i = promoted roots i := by
  simp [promoted, or_and_right, exists_or, h]

/-- The marks of the root loop after the records `done`. -/
def rootMarks (n : ℕ) (flag : ℕ → Bool) (done : List Elf32LinkMapRoot) : RootMarks where
  rootSeen := marks n fun i => decide (i ∈ done.map (·.objectIndex))
  requiredGlobal := marks n fun i => flag i || promoted done i

lemma checkRootRecord_ok_iff {flag : ℕ → Bool} {done : List Elf32LinkMapRoot}
    {record : Elf32LinkMapRoot} {r : RootMarks} :
    checkRootRecord n (rootMarks n flag done) record = .ok r
      ↔ (record.objectIndex < n ∧ record.objectIndex ∉ done.map (·.objectIndex)
          ∧ record.policy.Named)
        ∧ r = rootMarks n flag (done ++ [record]) := by
  have hnamed : ¬(record.policy ≠ .local ∧ record.policy ≠ .global) ↔ record.policy.Named := by
    rw [Elf32LinkMapRootPolicy.Named, not_and_or, not_not, not_not]
  have hbad : ¬(record.objectIndex ≥ n
        ∨ (rootMarks n flag done).rootSeen.getD record.objectIndex false = true
        ∨ (record.policy ≠ .local ∧ record.policy ≠ .global))
      ↔ record.objectIndex < n ∧ record.objectIndex ∉ done.map (·.objectIndex)
        ∧ record.policy.Named := by
    rw [not_or, not_or, ge_iff_le, not_le, hnamed]
    refine and_congr_right fun hlt => ?_
    rw [rootMarks, marks_getD hlt, decide_eq_true_eq]
  have hnext : rootMarks n flag (done ++ [record])
      = { rootSeen := (rootMarks n flag done).rootSeen.set record.objectIndex true
          requiredGlobal :=
            if record.policy = .global then
              (rootMarks n flag done).requiredGlobal.set record.objectIndex true
            else (rootMarks n flag done).requiredGlobal } := by
    simp only [rootMarks, marks_set, update_mem, List.map_append, List.map_singleton]
    split
    · rename_i h
      rw [update_promoted done h]
    · rename_i h
      simp only [promoted_append_of_local done h]
  rw [checkRootRecord, refuse_bind_ok_iff, hbad, hnext]
  refine and_congr_right fun _ => ?_
  exact ⟨fun h => by cases h; rfl, fun h => by rw [h]; rfl⟩

/-- The root loop accepts distinct records in range with named policies. -/
lemma checkRoots_ok_iff {flag : ℕ → Bool} {r : RootMarks} :
    roots.foldlM (checkRootRecord n) (rootMarks n flag []) = .ok r
      ↔ ((∀ record ∈ roots, record.objectIndex < n) ∧ (roots.map (·.objectIndex)).Nodup
          ∧ ∀ record ∈ roots, record.policy.Named)
        ∧ r = rootMarks n flag roots := by
  refine (foldlM_ok_iff fun done record r => checkRootRecord_ok_iff).trans ?_
  refine and_congr_left fun _ => ?_
  rw [List.Nodup, List.pairwise_map, pairwise_iff_split]
  constructor
  · intro h
    refine ⟨fun record hmem => ?_, fun done record rest hsplit b hb heq => ?_,
      fun record hmem => ?_⟩
    · obtain ⟨done, rest, hsplit⟩ := List.append_of_mem hmem
      exact (h done record rest hsplit).1
    · exact (h done record rest hsplit).2.1 (heq ▸ List.mem_map_of_mem hb)
    · obtain ⟨done, rest, hsplit⟩ := List.append_of_mem hmem
      exact (h done record rest hsplit).2.2
  · rintro ⟨hlt, hdistinct, hnamed⟩ done record rest hsplit
    have hmem : record ∈ roots := by simp [hsplit]
    refine ⟨hlt record hmem, fun hmem => ?_, hnamed record hmem⟩
    obtain ⟨b, hb, heq⟩ := List.mem_map.mp hmem
    exact hdistinct done record rest hsplit b hb heq

/-! ### The scope loop -/

lemma checkScopeObject_ok_iff {required : ℕ → Bool} {done : List ℕ} {index : ℕ}
    {r : ScopeMarks} :
    checkScopeObject n (marks n required) ⟨scopeMarks n done, done.getLast?⟩ index = .ok r
      ↔ (index < n ∧ index ∉ done ∧ required index = true
          ∧ ∀ previous ∈ done.getLast?, previous < index)
        ∧ r = ⟨scopeMarks n (done ++ [index]), (done ++ [index]).getLast?⟩ := by
  rw [checkScopeObject, refuse_bind_ok_iff]
  refine and_congr ?_ ?_
  · rw [not_or, not_or, not_or, ge_iff_le, not_le]
    refine and_congr_right fun hlt => ?_
    simp only [scopeMarks, marks_getD hlt, decide_eq_true_eq, Bool.not_eq_true', Bool.not_eq_false,
      not_exists, not_and, not_le]
  · have hnext : (scopeMarks n done).set index true = scopeMarks n (done ++ [index]) := by
      rw [scopeMarks, marks_set, update_mem, scopeMarks]
    rw [hnext, List.getLast?_concat]
    exact ⟨fun h => by cases h; rfl, fun h => by rw [h]; rfl⟩

/-- The scope loop accepts increasing lists of required indices. -/
lemma checkScope_ok_iff {required : ℕ → Bool} {r : ScopeMarks} :
    scope.foldlM (checkScopeObject n (marks n required)) ⟨scopeMarks n [], none⟩ = .ok r
      ↔ ((∀ index ∈ scope, index < n ∧ required index = true) ∧ scope.Pairwise (· < ·))
        ∧ r = ⟨scopeMarks n scope, scope.getLast?⟩ := by
  refine (foldlM_ok_iff (D := fun done => (⟨scopeMarks n done, done.getLast?⟩ : ScopeMarks))
    fun done index r => checkScopeObject_ok_iff).trans ?_
  refine and_congr_left fun _ => ?_
  constructor
  · intro h
    refine ⟨fun index hmem => ?_, ?_⟩
    · obtain ⟨done, rest, hsplit⟩ := List.append_of_mem hmem
      obtain ⟨hlt, -, hrequired, -⟩ := h done index rest hsplit
      exact ⟨hlt, hrequired⟩
    · -- each entry was compared with the one before it
      rw [← List.isChain_iff_pairwise, List.isChain_iff_forall_rel_of_append_cons_cons]
      intro a b done rest hsplit
      exact (h (done ++ [a]) b rest (by simp [hsplit])).2.2.2 a (by simp)
  · rintro ⟨hall, hsorted⟩ done index rest hsplit
    rw [pairwise_iff_split] at hsorted
    obtain ⟨hlt, hrequired⟩ := hall index (by simp [hsplit])
    refine ⟨hlt, fun hmem => ?_, hrequired, fun previous hprevious => ?_⟩
    · exact lt_irrefl _ (hsorted done index rest hsplit index hmem)
    · exact hsorted done index rest hsplit previous (List.mem_of_getLast? hprevious)

/-! ### The whole check -/

/-- The comparison loop: both vectors have the same marks. -/
lemma compareMarks_ok_iff {s t : ℕ → Bool} {u : Unit} :
    (objects.zip ((marks objects.length s).zip (marks objects.length t))).forM
        (fun entry => refuse (entry.2.1 ≠ entry.2.2)
          (loadFailure .invalidLinkMap entry.1.identity)) = .ok u
      ↔ ∀ i < objects.length, s i = t i := by
  rw [forM_ok_iff]
  simp only [refuse_ok_iff, ne_eq, not_not]
  constructor
  · intro h i hi
    refine h (objects[i], s i, t i) (List.mem_iff_getElem?.mpr ⟨i, ?_⟩)
    simp [List.getElem?_zip_eq_some, marks_getElem? hi]
  · rintro h ⟨object, a, b⟩ hmem
    obtain ⟨i, hi⟩ := List.mem_iff_getElem?.mp hmem
    simp only [List.getElem?_zip_eq_some] at hi
    obtain ⟨hobject, ha, hb⟩ := hi
    obtain ⟨hlt, -⟩ := List.getElem?_eq_some_iff.mp hobject
    rw [marks_getElem? hlt, Option.some_inj] at ha hb
    rw [← ha, ← hb, h i hlt]

lemma map_global_eq_marks :
    objects.map (·.linkerMetadata.global) = marks objects.length (globalFlag objects) := by
  refine List.ext_getElem (by simp) fun i h1 h2 => ?_
  have hi : i < objects.length := by simpa using h1
  simp [marks, globalFlag, hi]

end Loops

/-- **The validation accepts exactly the link maps that satisfy the invariant.** -/
theorem checkLinkMap_ok_iff {linkMap : Elf32LinkMap} {index : LinkMapIndex} :
    checkLinkMap linkMap = .ok index
      ↔ LinkMapOk linkMap ∧ index = ⟨identityIndex linkMap.graph.objects,
          scopeMarks linkMap.graph.objects.length linkMap.globalScopeObjects⟩ := by
  have hroot : ({ rootSeen := List.replicate linkMap.graph.objects.length false
                  requiredGlobal := linkMap.graph.objects.map (·.linkerMetadata.global) } :
      RootMarks)
      = rootMarks linkMap.graph.objects.length (globalFlag linkMap.graph.objects) [] := by
    simp [rootMarks, replicate_eq_marks, map_global_eq_marks, promoted]
  have hscope : List.replicate linkMap.graph.objects.length false
      = scopeMarks linkMap.graph.objects.length [] := by
    simp [scopeMarks, replicate_eq_marks]
  simp only [checkLinkMap, bind_ok_iff, hroot, checkObjects_ok_iff, checkRoots_ok_iff]
  rw [hscope]
  constructor
  · rintro ⟨_, ⟨hgraph, rfl⟩, _, ⟨⟨hlt, hdistinct, hnamed⟩, rfl⟩, _, hloop, ⟨⟩, hcompare, hret⟩
    obtain ⟨⟨hall, hsorted⟩, rfl⟩ := checkScope_ok_iff.mp hloop
    have hequal := compareMarks_ok_iff.mp hcompare
    cases hret
    refine ⟨⟨hgraph, hlt, hdistinct, hnamed, hsorted, fun i => ⟨hall i, ?_⟩⟩, rfl⟩
    rintro ⟨hi, hrequired⟩
    exact decide_eq_true_eq.mp ((hequal i hi).symm.trans hrequired)
  · rintro ⟨⟨hgraph, hlt, hdistinct, hnamed, hsorted, hmem⟩, rfl⟩
    refine ⟨_, ⟨hgraph, rfl⟩, _, ⟨⟨hlt, hdistinct, hnamed⟩, rfl⟩, _,
      checkScope_ok_iff.mpr ⟨⟨fun i hi => (hmem i).mp hi, hsorted⟩, rfl⟩, (),
      compareMarks_ok_iff.mpr fun i hi => ?_, rfl⟩
    rw [Bool.eq_iff_iff, decide_eq_true_eq, hmem i]
    exact ⟨fun h => ⟨hi, h⟩, fun h => h.2⟩

end LibA32Android
