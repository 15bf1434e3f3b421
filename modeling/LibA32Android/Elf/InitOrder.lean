/-
The order of constructors.

A successful visit is a depth-first walk of the dependency graph (`Visited`), and
its calls are those of the finished objects in the order of completion.  What
holds of depth-first walks then holds of the plan.

* `functionWords`, `Elf32DependencyGraph.initCalls`: the words of an array as the
  memory delivers them, and the calls of an object;
* `Visited`: what a successful visit does to the context;
* `visit_ok`: the recursion, and `visit_congr`: neither the levels of the model
  nor the way a subtraction wraps plays a part;
* `planElf32InitArrayCalls_order`: dependencies come before their requesters,
  each object once.
-/
import LibA32Android.Elf.Lifecycle
import LibA32Android.Foundations.DepthFirst

namespace LibA32Android

open Foundations QueryProgram

/-! ### The words of an array -/

/-- The words of a function array, as a memory delivers them. -/
def functionWords (o : UInt32 × ℕ → Option (List UInt8)) (array : Elf32FunctionArrayMetadata) :
    List UInt32 :=
  (List.range (array.size.toNat / 4)).map fun index =>
    decodeU32Le ((o (UInt32.ofNat (array.guestAddress.toNat + index * 4), 4)).getD []) 0

section Decode

variable {o : UInt32 × ℕ → Option (List UInt8)} {array : Elf32FunctionArrayMetadata}

lemma decodeFunctionEntries_ok {left index : ℕ} {entries : List UInt32}
    (h : (decodeFunctionEntries array left index).under o = .ok entries) :
    entries = (List.range' index left).map fun index =>
      decodeU32Le ((o (UInt32.ofNat (array.guestAddress.toNat + index * 4), 4)).getD []) 0 := by
  induction left generalizing index entries with
  | zero =>
      cases h
      rfl
  | succ left ih =>
      simp only [decodeFunctionEntries, under_bind, under_reject, refuse_bind_ok_iff, readBytes,
        under_query, ok_bind] at h
      obtain ⟨-, h⟩ := h
      cases hread : o (UInt32.ofNat (array.guestAddress.toNat + index * 4), 4) with
      | none =>
          rw [hread] at h
          cases h
      | some bytes =>
          rw [hread] at h
          simp only [under_bind, bind_ok_iff] at h
          obtain ⟨rest, hrest, hret⟩ := h
          cases hret
          rw [List.range'_succ, List.map_cons, hread, Option.getD_some, ih hrest]

/-- A decoded array: its words, and not more than allowed. -/
lemma decodeElf32FunctionArray_ok {options : Elf32FunctionArrayDecodeOptions}
    {entries : List UInt32} (h : (decodeElf32FunctionArray array options).under o = .ok entries) :
    entries = functionWords o array ∧ entries.length ≤ options.maxEntries.toNat := by
  simp only [decodeElf32FunctionArray, under_bind, under_reject, refuse_bind_ok_iff] at h
  obtain ⟨-, hcount, -, h⟩ := h
  have hdiv : (array.size / 4).toNat = array.size.toNat / 4 := by
    rw [UInt32.toNat_div]
    rfl
  have hentries := decodeFunctionEntries_ok h
  rw [hdiv, ← List.range_eq_range'] at hentries
  refine ⟨hentries, ?_⟩
  rw [hentries, List.length_map, List.length_range, ← hdiv]
  exact UInt32.not_lt.mp hcount

end Decode

/-- The words of the constructor array of an object. -/
def Elf32DependencyGraph.initWords (graph : Elf32DependencyGraph)
    (o : UInt32 × ℕ → Option (List UInt8)) (objectIndex : ℕ) : List UInt32 :=
  ((graph.objects.getD objectIndex default).linkerMetadata.initArray.map (functionWords o)).getD []

/-- The constructor calls of an object: the positions of its array in order, but for
those that hold a null or an all-ones word, each with the word it holds. -/
def Elf32DependencyGraph.initCalls (graph : Elf32DependencyGraph)
    (o : UInt32 × ℕ → Option (List UInt8)) (objectIndex : ℕ) : List Elf32InitCall :=
  let words := graph.initWords o objectIndex
  ((List.range words.length).filter fun index =>
    words.getD index 0 ≠ 0 ∧ words.getD index 0 ≠ 0xffffffff).map fun index =>
      { objectIndex, arrayIndex := UInt32.ofNat index, function := words.getD index 0 }

/-- The calls that a visit appends are those of the object. -/
lemma initCallsOf_initWords (graph : Elf32DependencyGraph)
    (o : UInt32 × ℕ → Option (List UInt8)) (objectIndex : ℕ) :
    initCallsOf objectIndex (graph.initWords o objectIndex) = graph.initCalls o objectIndex := by
  rw [initCallsOf, Elf32DependencyGraph.initCalls]
  generalize graph.initWords o objectIndex = words
  have hzip : words.zipIdx = (List.range words.length).map fun index =>
      (words.getD index 0, index) := by
    refine List.ext_getElem (by simp) fun index h1 h2 => ?_
    have hlt : index < words.length := by simpa using h1
    simp [hlt]
  rw [hzip, List.filterMap_map]
  generalize List.range words.length = indices
  induction indices with
  | nil => rfl
  | cons index indices ih =>
      rw [List.filterMap_cons, Function.comp_apply, ih]
      dsimp only
      by_cases hsentinel : words.getD index 0 = 0 ∨ words.getD index 0 = 0xffffffff
      · have hskip : ¬(words.getD index 0 ≠ 0 ∧ words.getD index 0 ≠ 0xffffffff) :=
          fun h => hsentinel.elim h.1 h.2
        rw [if_pos hsentinel, List.filter_cons, if_neg (mt of_decide_eq_true hskip)]
      · have hkeep : words.getD index 0 ≠ 0 ∧ words.getD index 0 ≠ 0xffffffff := not_or.mp hsentinel
        rw [if_neg hsentinel, List.filter_cons, if_pos (decide_eq_true hkeep), List.map_cons]

/-- The number of words of the constructor arrays of several objects. -/
def Elf32DependencyGraph.wordCount (graph : Elf32DependencyGraph)
    (o : UInt32 × ℕ → Option (List UInt8)) (objects : List ℕ) : ℕ :=
  (objects.map fun objectIndex => (graph.initWords o objectIndex).length).sum

@[simp] lemma wordCount_append (graph : Elf32DependencyGraph)
    (o : UInt32 × ℕ → Option (List UInt8)) (objects objects' : List ℕ) :
    graph.wordCount o (objects ++ objects')
      = graph.wordCount o objects + graph.wordCount o objects' := by
  simp [Elf32DependencyGraph.wordCount]

/-! ### Contexts -/

/-- A subtraction that is exact when it does not wrap, and otherwise may answer
or fail as it likes. -/
def ExactSub (sub : UInt32 → UInt32 → Except Elf32InitPlanFailure UInt32) : Prop :=
  ∀ a b, b ≤ a → sub a b = .ok (a - b)

lemma exactSub_sub : ExactSub fun a b => .ok (a - b) := fun _ _ _ => rfl

/-- The counters of a context are within the limits. -/
structure InitPlanContext.Within (graph : Elf32DependencyGraph) (options : Elf32InitPlanOptions)
    (ctx : InitPlanContext) : Prop where
  states : ctx.states.length = graph.objects.length
  visited : ctx.visitedObjects ≤ options.maxObjects
  decoded : ctx.decodedEntries ≤ options.maxEntries

/-- The objects whose visit has begun. -/
def InitPlanContext.seen (ctx : InitPlanContext) : Set ℕ := {i | ctx.state i ≠ .unseen}

lemma seen_set {ctx : InitPlanContext} {objectIndex : ℕ} (h : objectIndex < ctx.states.length)
    {state : InitVisitState} (hstate : state ≠ .unseen) {visited decoded : UInt32}
    {calls : List Elf32InitCall} :
    ({ states := ctx.states.set objectIndex state, visitedObjects := visited,
       decodedEntries := decoded, calls := calls } : InitPlanContext).seen
      = insert objectIndex ctx.seen := by
  ext i
  simp only [InitPlanContext.seen, InitPlanContext.state, Set.mem_ofPred_eq, Set.mem_insert_iff,
    List.getD_eq_getElem?_getD, List.getElem?_set]
  by_cases hi : objectIndex = i
  · subst hi
    simp [h, hstate]
  · simp [hi, Ne.symm hi]

/-- A visit of the objects `work`: a depth-first walk, the calls of the finished
objects, and the counters moved along. -/
structure Visited (o : UInt32 × ℕ → Option (List UInt8)) (graph : Elf32DependencyGraph)
    (options : Elf32InitPlanOptions) (ctx : InitPlanContext) (work pre post : List ℕ)
    (ctx' : InitPlanContext) : Prop where
  walk : DepthFirst (dependencyTargets graph) ctx.seen work pre post
  within : ctx'.Within graph options
  seen : ctx'.seen = ctx.seen ∪ {i | i ∈ pre}
  calls : ctx'.calls = ctx.calls ++ post.flatMap (graph.initCalls o)
  visited : ctx'.visitedObjects.toNat = ctx.visitedObjects.toNat + post.length
  decoded : ctx'.decodedEntries.toNat = ctx.decodedEntries.toNat + graph.wordCount o post

section Steps

variable {o : UInt32 × ℕ → Option (List UInt8)} {graph : Elf32DependencyGraph}
  {options : Elf32InitPlanOptions} {sub sub' : UInt32 → UInt32 → Except Elf32InitPlanFailure UInt32}
  {ctx ctx' ctx'' : InitPlanContext} {objectIndex : ℕ}

lemma Visited.nil (h : ctx.Within graph options) : Visited o graph options ctx [] [] [] ctx where
  walk := .nil _
  within := h
  seen := by ext i; simp
  calls := by simp
  visited := by simp
  decoded := by simp [Elf32DependencyGraph.wordCount]

/-- Passing over an object that was seen. -/
lemma Visited.skip (h : ctx.Within graph options) (hseen : objectIndex ∈ ctx.seen) :
    Visited o graph options ctx [objectIndex] [] [] ctx :=
  { Visited.nil h with walk := .skip hseen (.nil _) }

/-- One object and then the others. -/
lemma Visited.cons {work pre post pre' post' : List ℕ}
    (h : Visited o graph options ctx [objectIndex] pre post ctx')
    (h' : Visited o graph options ctx' work pre' post' ctx'') :
    Visited o graph options ctx (objectIndex :: work) (pre ++ pre') (post ++ post') ctx'' where
  walk := h.walk.cons (h.seen ▸ h'.walk)
  within := h'.within
  seen := by
    rw [h'.seen, h.seen, Set.union_assoc]
    congr 1
    ext i
    simp
  calls := by rw [h'.calls, h.calls, List.flatMap_append, List.append_assoc]
  visited := by rw [h'.visited, h.visited, List.length_append, Nat.add_assoc]
  decoded := by rw [h'.decoded, h.decoded, wordCount_append, Nat.add_assoc]

/-- The array of an object. -/
lemma addInitArray_ok (hsub : ExactSub sub) (hctx : ctx.Within graph options)
    (h : (addInitArray sub graph options objectIndex ctx).under o = .ok ctx') :
    ctx'.states = ctx.states ∧ ctx'.visitedObjects = ctx.visitedObjects
      ∧ ctx'.decodedEntries ≤ options.maxEntries
      ∧ ctx'.calls = ctx.calls ++ graph.initCalls o objectIndex
      ∧ ctx'.decodedEntries.toNat
        = ctx.decodedEntries.toNat + (graph.initWords o objectIndex).length := by
  rw [addInitArray] at h
  cases harray : (graph.objects.getD objectIndex default).linkerMetadata.initArray with
  | none =>
      rw [harray] at h
      cases h
      have hinit : graph.initWords o objectIndex = [] := by
        rw [Elf32DependencyGraph.initWords, harray]
        rfl
      refine ⟨rfl, rfl, hctx.decoded, ?_, ?_⟩
      · rw [Elf32DependencyGraph.initCalls, hinit]
        exact (List.append_nil _).symm
      · rw [hinit, List.length_nil, Nat.add_zero]
  | some array =>
      rw [harray] at h
      simp only [hsub _ _ hctx.decoded, under_bind, under_ofExcept, under_attempt, ok_bind] at h
      cases hdecode : (decodeElf32FunctionArray array
          { maxEntries := options.maxEntries - ctx.decodedEntries }).under o with
      | error e =>
          rw [hdecode] at h
          cases h
      | ok entries =>
          rw [hdecode] at h
          cases h
          obtain ⟨hwords, hlen⟩ := decodeElf32FunctionArray_ok hdecode
          have hinit : graph.initWords o objectIndex = entries := by
            rw [Elf32DependencyGraph.initWords, harray, hwords]
            rfl
          have hle := UInt32.le_iff_toNat_le.mp hctx.decoded
          rw [UInt32.toNat_sub_of_le _ _ hctx.decoded] at hlen
          have hmax := options.maxEntries.toNat_lt
          have hsize : (UInt32.ofNat entries.length).toNat = entries.length :=
            UInt32.toNat_ofNat_of_lt' (show entries.length < 2 ^ 32 by omega)
          -- the sum stays below the limit, so it does not wrap
          have hsum : (ctx.decodedEntries + UInt32.ofNat entries.length).toNat
              = ctx.decodedEntries.toNat + entries.length := by
            rw [UInt32.toNat_add, hsize, Nat.mod_eq_of_lt (by omega)]
          refine ⟨rfl, rfl, ?_, ?_, ?_⟩
          · rw [UInt32.le_iff_toNat_le, hsum]
            omega
          · rw [← initCallsOf_initWords, hinit]
          · rw [hsum, hinit]

/-- The edge loop, given that a visit of one object is what it should be. -/
lemma visitEdges_ok {levels : ℕ} {edges : List Elf32DependencyEdge}
    (hvisit : ∀ {target : ℕ} {ctx ctx' : InitPlanContext}, target < graph.objects.length →
      ctx.Within graph options → (visit sub graph options levels target ctx).under o = .ok ctx' →
      ∃ pre post, Visited o graph options ctx [target] pre post ctx')
    (hctx : ctx.Within graph options)
    (h : (visitEdges graph objectIndex (visit sub graph options levels) edges ctx).under o
      = .ok ctx') :
    ∃ pre post, Visited o graph options ctx (edges.map (·.targetObject)) pre post ctx' := by
  induction edges generalizing ctx with
  | nil =>
      cases h
      exact ⟨[], [], .nil hctx⟩
  | cons edge edges ih =>
      rw [visitEdges, under_bind, under_reject, refuse_bind_ok_iff, under_bind, bind_ok_iff] at h
      obtain ⟨hlt, ctx₁, hone, hrest⟩ := h
      obtain ⟨pre, post, h₁⟩ := hvisit (Nat.not_le.mp hlt) hctx hone
      obtain ⟨pre', post', h₂⟩ := ih h₁.within hrest
      exact ⟨_, _, h₁.cons h₂⟩

/-- The context in which an object is being visited. -/
def InitPlanContext.enter (ctx : InitPlanContext) (objectIndex : ℕ) : InitPlanContext :=
  { ctx with
    visitedObjects := ctx.visitedObjects + 1
    states := ctx.states.set objectIndex .visiting }

lemma enter_visited (hlt : ctx.visitedObjects < options.maxObjects) :
    (ctx.enter objectIndex).visitedObjects.toNat = ctx.visitedObjects.toNat + 1 := by
  have hmax := options.maxObjects.toNat_lt
  have hlt' : ctx.visitedObjects.toNat < options.maxObjects.toNat := hlt
  rw [InitPlanContext.enter, UInt32.toNat_add]
  exact Nat.mod_eq_of_lt (by show ctx.visitedObjects.toNat + 1 < 2 ^ 32; omega)

lemma InitPlanContext.Within.enter (h : ctx.Within graph options)
    (hlt : ctx.visitedObjects < options.maxObjects) :
    (ctx.enter objectIndex).Within graph options where
  states := by rw [InitPlanContext.enter, List.length_set, h.states]
  visited := by
    rw [UInt32.le_iff_toNat_le, enter_visited hlt]
    exact hlt
  decoded := h.decoded

/-- **A successful visit is a depth-first walk**, whose calls are those of the
objects in the order in which they are finished. -/
lemma visit_ok (hsub : ExactSub sub) {levels : ℕ} (hindex : objectIndex < graph.objects.length)
    (hctx : ctx.Within graph options)
    (h : (visit sub graph options levels objectIndex ctx).under o = .ok ctx') :
    ∃ pre post, Visited o graph options ctx [objectIndex] pre post ctx' := by
  induction levels generalizing objectIndex ctx ctx' with
  | zero =>
      rw [visit] at h
      split at h
      · rename_i hseen
        cases h
        exact ⟨[], [], .skip hctx hseen⟩
      · cases h
  | succ levels ih =>
      rw [visit] at h
      split at h
      · rename_i hseen
        cases h
        exact ⟨[], [], .skip hctx hseen⟩
      rename_i hseen
      rw [under_bind, under_reject, refuse_bind_ok_iff, under_bind, bind_ok_iff] at h
      simp only [under_bind, bind_ok_iff] at h
      obtain ⟨hlimit, ctx₁, hedges, ctx₂, harray, hret⟩ := h
      cases hret
      have hlt : ctx.visitedObjects < options.maxObjects := UInt32.not_le.mp hlimit
      obtain ⟨pre, post, h₁⟩ := visitEdges_ok ih (hctx.enter hlt) hedges
      obtain ⟨hstates, hvisited, hwithin, hcalls, hdecoded⟩ :=
        addInitArray_ok hsub h₁.within harray
      have hlen : ctx.states.length = graph.objects.length := hctx.states
      have henter : (ctx.enter objectIndex).seen = insert objectIndex ctx.seen :=
        seen_set (hlen ▸ hindex) (by decide)
      have hlen₁ : ctx₁.states.length = graph.objects.length := h₁.within.states
      refine ⟨objectIndex :: pre ++ [], post ++ [objectIndex], ?_, ⟨?_, ?_, hwithin⟩, ?_, ?_, ?_,
        ?_⟩
      · exact .visit hseen (henter ▸ h₁.walk) (.nil _)
      · show (ctx₂.states.set objectIndex .complete).length = _
        rw [List.length_set, hstates, hlen₁]
      · show ctx₂.visitedObjects ≤ _
        rw [hvisited]
        exact h₁.within.visited
      · -- completing an object that is being visited marks nothing new
        have hcomplete : ({ ctx₂ with states := ctx₂.states.set objectIndex .complete } :
            InitPlanContext).seen = insert objectIndex ctx₂.seen :=
          seen_set (by rw [hstates, hlen₁]; exact hindex) (by decide)
        rw [hcomplete]
        have hsame : ctx₂.seen = ctx₁.seen := by
          simp only [InitPlanContext.seen, InitPlanContext.state, hstates]
        rw [hsame, h₁.seen, henter]
        ext i
        simp only [Set.mem_insert_iff, Set.mem_union, Set.mem_ofPred_eq, List.append_nil,
          List.mem_cons]
        tauto
      · show ctx₂.calls = _
        rw [hcalls, h₁.calls, List.flatMap_append, List.flatMap_singleton, ← List.append_assoc]
        rfl
      · show ctx₂.visitedObjects.toNat = _
        rw [hvisited, h₁.visited, enter_visited hlt, List.length_append, List.length_singleton]
        omega
      · show ctx₂.decodedEntries.toNat = _
        rw [hdecoded, h₁.decoded, wordCount_append]
        simp [Elf32DependencyGraph.wordCount, InitPlanContext.enter, Nat.add_assoc]

/-! ### Neither the levels nor a wrap matter -/

/-- The words left are computed without a wrap. -/
lemma addInitArray_congr (hsub : ExactSub sub) (hsub' : ExactSub sub')
    (hctx : ctx.Within graph options) :
    addInitArray sub graph options objectIndex ctx
      = addInitArray sub' graph options objectIndex ctx := by
  rw [addInitArray, addInitArray, hsub _ _ hctx.decoded, hsub' _ _ hctx.decoded]

lemma visitEdges_congr {visit₁ visit₂ : ℕ → InitPlanContext →
      GuestRead Elf32InitPlanFailure InitPlanContext} {I : InitPlanContext → Prop}
    (hstep : ∀ {target : ℕ} {ctx ctx' : InitPlanContext}, target < graph.objects.length → I ctx →
      (visit₁ target ctx).under o = .ok ctx' → I ctx')
    (hsame : ∀ {target : ℕ} {ctx : InitPlanContext}, target < graph.objects.length → I ctx →
      (visit₁ target ctx).under o = (visit₂ target ctx).under o)
    {edges : List Elf32DependencyEdge} (hctx : I ctx) :
    (visitEdges graph objectIndex visit₁ edges ctx).under o
      = (visitEdges graph objectIndex visit₂ edges ctx).under o := by
  induction edges generalizing ctx with
  | nil => rfl
  | cons edge edges ih =>
      simp only [visitEdges, under_bind, under_reject]
      refine bind_congr_ok rfl fun _ hok => ?_
      have hlt : edge.targetObject < graph.objects.length := Nat.not_le.mp (refuse_ok_iff.mp hok)
      exact bind_congr_ok (hsame hlt hctx) fun ctx₁ hone => ih (hstep hlt hctx hone)

/-- Enough levels for the objects that may still be visited. -/
def EnoughLevels (options : Elf32InitPlanOptions) (levels : ℕ) (ctx : InitPlanContext) : Prop :=
  options.maxObjects.toNat ≤ ctx.visitedObjects.toNat + levels

/-- A visit without levels left reports what the source's object limit reports. -/
lemma visit_zero (h : EnoughLevels options 0 ctx) (levels : ℕ) :
    visit sub graph options levels objectIndex ctx
      = visit sub' graph options 0 objectIndex ctx := by
  cases levels with
  | zero => rfl
  | succ levels =>
      rw [visit, visit]
      split
      · rfl
      · have hlimit : ctx.visitedObjects ≥ options.maxObjects := UInt32.le_iff_toNat_le.mpr h
        rw [reject, if_pos hlimit]
        rfl

/-- **The outcome of a visit depends neither on the levels, once there are enough
of them, nor on what a subtraction does when it wraps.** -/
lemma visit_congr (hsub : ExactSub sub) (hsub' : ExactSub sub') {levels levels' : ℕ}
    (hindex : objectIndex < graph.objects.length) (hctx : ctx.Within graph options)
    (henough : EnoughLevels options levels ctx) (henough' : EnoughLevels options levels' ctx) :
    (visit sub graph options levels objectIndex ctx).under o
      = (visit sub' graph options levels' objectIndex ctx).under o := by
  induction levels generalizing levels' objectIndex ctx with
  | zero =>
      have hzero : visit sub' graph options levels' objectIndex ctx
          = visit sub graph options 0 objectIndex ctx := visit_zero henough levels'
      rw [hzero]
  | succ levels ih =>
      cases levels' with
      | zero =>
          have hzero : visit sub graph options (levels + 1) objectIndex ctx
              = visit sub' graph options 0 objectIndex ctx := visit_zero henough' (levels + 1)
          rw [hzero]
      | succ levels' =>
          rw [visit, visit]
          split
          · rfl
          simp only [under_bind, under_reject]
          refine bind_congr_ok rfl fun _ hok => ?_
          have hlt : ctx.visitedObjects < options.maxObjects :=
            UInt32.not_le.mp (refuse_ok_iff.mp hok)
          -- the invariant of the edge loop: the counters, and enough levels on both sides
          let I := fun ctx : InitPlanContext => ctx.Within graph options
            ∧ EnoughLevels options levels ctx ∧ EnoughLevels options levels' ctx
          have henter : I (ctx.enter objectIndex) := by
            refine ⟨hctx.enter hlt, ?_, ?_⟩
            · rw [EnoughLevels, enter_visited hlt, Nat.add_assoc, Nat.add_comm 1]
              exact henough
            · rw [EnoughLevels, enter_visited hlt, Nat.add_assoc, Nat.add_comm 1]
              exact henough'
          refine bind_congr_ok (visitEdges_congr (I := I) ?_ ?_ henter) fun ctx₁ hedges => ?_
          · rintro target c c' htarget ⟨hwithin, hlevels, hlevels'⟩ hone
            obtain ⟨pre, post, h⟩ := visit_ok hsub htarget hwithin hone
            have hvisited := h.visited
            simp only [I, EnoughLevels] at hlevels hlevels' ⊢
            exact ⟨h.within, by omega, by omega⟩
          · rintro target c htarget ⟨hwithin, hlevels, hlevels'⟩
            exact ih htarget hwithin hlevels hlevels'
          · obtain ⟨pre, post, h⟩ := visitEdges_ok (visit_ok hsub) (hctx.enter hlt) hedges
            rw [addInitArray_congr hsub hsub' h.within]

end Steps

/-! ### The plan -/

lemma initial_within (graph : Elf32DependencyGraph) (options : Elf32InitPlanOptions) :
    InitPlanContext.Within graph options
      { states := List.replicate graph.objects.length .unseen } where
  states := List.length_replicate
  visited := UInt32.zero_le
  decoded := UInt32.zero_le

lemma initial_seen (graph : Elf32DependencyGraph) :
    InitPlanContext.seen { states := List.replicate graph.objects.length .unseen } = ∅ := by
  ext i
  simp only [InitPlanContext.seen, InitPlanContext.state, Set.mem_ofPred_eq,
    List.getD_eq_getElem?_getD, List.getElem?_replicate, Set.mem_empty_iff_false, iff_false,
    not_not]
  split <;> rfl

/-- The order of completion: what a successful plan is made of. -/
lemma planInitArrayCallsWith_ok {o : UInt32 × ℕ → Option (List UInt8)}
    {graph : Elf32DependencyGraph} {options : Elf32InitPlanOptions} {rootObject : ℕ}
    {sub : UInt32 → UInt32 → Except Elf32InitPlanFailure UInt32} (hsub : ExactSub sub)
    {calls : List Elf32InitCall}
    (h : (planInitArrayCallsWith sub graph options rootObject).under o = .ok calls) :
    ∃ pre post, DepthFirst (dependencyTargets graph) ∅ [rootObject] pre post
      ∧ calls = post.flatMap (graph.initCalls o)
      ∧ post.length ≤ options.maxObjects.toNat
      ∧ graph.wordCount o post ≤ options.maxEntries.toNat := by
  rw [planInitArrayCallsWith, under_bind, under_reject, refuse_bind_ok_iff, under_bind,
    under_reject, refuse_bind_ok_iff, under_bind, bind_ok_iff] at h
  obtain ⟨-, hroot, ctx, hvisit, hret⟩ := h
  cases hret
  obtain ⟨pre, post, h⟩ := visit_ok hsub (Nat.not_le.mp hroot) (initial_within graph options) hvisit
  have hvisited := h.visited
  have hdecoded := h.decoded
  have hmax := UInt32.le_iff_toNat_le.mp h.within.visited
  have hmax' := UInt32.le_iff_toNat_le.mp h.within.decoded
  refine ⟨pre, post, initial_seen graph ▸ h.walk, ?_, ?_, ?_⟩
  · rw [h.calls, List.nil_append]
  · rw [UInt32.toNat_zero, Nat.zero_add] at hvisited
    omega
  · rw [UInt32.toNat_zero, Nat.zero_add] at hdecoded
    omega


/-- In an enumeration that is split at `u`, what stands before `u` comes first. -/
lemma idxOf_lt_idxOf {before after : List ℕ} {u v : ℕ} (hnodup : (before ++ u :: after).Nodup)
    (hv : v ∈ before) : (before ++ u :: after).idxOf v < (before ++ u :: after).idxOf u := by
  have hu : u ∉ before := fun hmem =>
    (List.nodup_append.mp hnodup).2.2 u hmem u List.mem_cons_self rfl
  calc (before ++ u :: after).idxOf v = before.idxOf v := List.idxOf_append_of_mem hv
    _ < before.length := List.idxOf_lt_length_of_mem hv
    _ ≤ (before ++ u :: after).idxOf u := by
      rw [List.idxOf_append_of_notMem hu]
      exact Nat.le_add_right _ _

/-- **Constructors run in dependency order.**  A plan enumerates the objects
reachable from its root, each once and the root last, and an object comes after
those it depends on unless they depend on it in turn.  Its calls are the words of
their arrays but for the sentinels.  The limits are kept, and the words left are
never computed by a subtraction that wraps: one that fails on a wrap gives the
same plan or the same error. -/
theorem planElf32InitArrayCalls_order {M : Type} [GuestMemory M] (memory : M)
    (graph : Elf32DependencyGraph) (rootObject : ℕ) (options : Elf32InitPlanOptions) :
    (∀ calls, (planElf32InitArrayCalls graph rootObject options).under (GuestMemory.reads memory)
        = .ok calls →
      ∃ order : List ℕ, order.Nodup
        ∧ (∀ i, i ∈ order ↔ Reaches (dependencyTargets graph) rootObject i)
        ∧ order.getLast? = some rootObject
        ∧ calls = order.flatMap (graph.initCalls (GuestMemory.reads memory))
        ∧ (∀ u v, Reaches (dependencyTargets graph) rootObject u → v ∈ dependencyTargets graph u →
            ¬Reaches (dependencyTargets graph) v u → order.idxOf v < order.idxOf u)
        ∧ order.length ≤ options.maxObjects.toNat
        ∧ graph.wordCount (GuestMemory.reads memory) order ≤ options.maxEntries.toNat)
      ∧ ∀ sub, ExactSub sub →
        (planInitArrayCallsWith sub graph options rootObject).under (GuestMemory.reads memory)
          = (planElf32InitArrayCalls graph rootObject options).under
            (GuestMemory.reads memory) := by
  refine ⟨fun calls h => ?_, fun sub hsub => ?_⟩
  · obtain ⟨pre, post, hwalk, hcalls, hobjects, hwords⟩ := planInitArrayCallsWith_ok exactSub_sub h
    have hnodup : post.Nodup := hwalk.perm.nodup_iff.mp hwalk.nodup
    have hmem : ∀ i, i ∈ post ↔ Reaches (dependencyTargets graph) rootObject i :=
      fun i => hwalk.mem_post.trans hwalk.mem_iff
    refine ⟨post, hnodup, hmem, ?_, hcalls, ?_, hobjects, hwords⟩
    · obtain ⟨rest, rfl⟩ := hwalk.root_last (Set.notMem_empty rootObject)
      exact List.getLast?_concat
    · intro u v hu hv hback
      obtain ⟨before, after, hpost⟩ := List.append_of_mem ((hmem u).mpr hu)
      have hbefore : v ∈ before := by
        rcases hwalk.finished_before hpost hv with hseen | hbefore | hreach
        · exact absurd hseen (Set.notMem_empty v)
        · exact hbefore
        · exact absurd hreach hback
      rw [hpost] at hnodup ⊢
      exact idxOf_lt_idxOf hnodup hbefore
  · rw [planElf32InitArrayCalls, planInitArrayCallsWith, planInitArrayCallsWith]
    simp only [under_bind, under_reject]
    refine bind_congr_ok rfl fun _ _ => bind_congr_ok rfl fun _ hroot => ?_
    have hroot : rootObject < graph.objects.length := Nat.not_le.mp (refuse_ok_iff.mp hroot)
    have henough : EnoughLevels options options.maxObjects.toNat
        { states := List.replicate graph.objects.length .unseen } := Nat.le_add_left _ _
    rw [visit_congr hsub exactSub_sub hroot (initial_within graph options) henough henough]

/-- Four objects, of which the last leads back to the first, and their arrays. -/
def cyclicGraph : Elf32DependencyGraph where
  objects :=
    [{ dependencies := [⟨[], 1⟩, ⟨[], 2⟩]
       linkerMetadata := { initArray := some ⟨0x1018, 4⟩ } },
     { dependencies := [⟨[], 3⟩]
       linkerMetadata := { initArray := some ⟨0x1004, 8⟩ } },
     { dependencies := [⟨[], 3⟩]
       linkerMetadata := { initArray := some ⟨0x100c, 8⟩ } },
     { dependencies := [⟨[], 0⟩]
       linkerMetadata := { initArray := some ⟨0x1000, 4⟩ } }]

def constructorMemory : LinearGuestMemory where
  base := 0x1000
  bytes := [0x01, 0x30, 0, 0, 0, 0, 0, 0, 0x01, 0x10, 0, 0, 0xff, 0xff, 0xff, 0xff,
    0x00, 0x20, 0, 0, 0, 0, 0, 0, 0x00, 0x40, 0, 0]
  size_le := by decide

theorem planElf32InitArrayCalls_order_cyclic : ∃ order : List ℕ, order.Nodup
    ∧ order.getLast? = some 0
    ∧ [⟨3, 0, 0x3001⟩, ⟨1, 1, 0x1001⟩, ⟨2, 1, 0x2000⟩, ⟨0, 0, 0x4000⟩]
      = order.flatMap (cyclicGraph.initCalls (GuestMemory.reads constructorMemory)) := by
  obtain ⟨order, hnodup, -, hlast, hcalls, -⟩ :=
    (planElf32InitArrayCalls_order constructorMemory cyclicGraph 0
      { maxObjects := 4, maxEntries := 6 }).1
      [⟨3, 0, 0x3001⟩, ⟨1, 1, 0x1001⟩, ⟨2, 1, 0x2000⟩, ⟨0, 0, 0x4000⟩] (by decide +kernel)
  exact ⟨order, hnodup, hlast, hcalls⟩

end LibA32Android
