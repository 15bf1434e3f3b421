/-
The scope of a graph lookup.

* `scopeCandidates`: the objects a lookup may search, in order: the requester if
  it is symbolic, the global scope, and the breadth-first dependency closure,
  each object at its first place;
* `searchIn`: the first of a list of candidates that has something to say, within
  the object limit;
* `lookupElf32GraphSymbolImpl_eq`: the loops of the source, with their marks and
  their queue, do that search.
-/
import LibA32Android.Elf.LoadEffect
import LibA32Android.Elf.SymbolLookup
import LibA32Android.Foundations.BreadthFirst
import LibA32Android.Foundations.FirstHit
import LibA32Android.Foundations.Marks

namespace LibA32Android

open Foundations QueryProgram

/-! ### Candidates -/

/-- The breadth-first dependency closure of an object. -/
def dependencyClosure (graph : Elf32DependencyGraph) (startObject : ℕ) : List ℕ :=
  breadthFirst (dependencyTargets graph) graph.objects.length [] [startObject]

/-- The objects of a lookup, in the order in which they are searched. -/
def scopeCandidates (graph : Elf32DependencyGraph) (startObject : ℕ)
    (globalScopeObjects : List ℕ) (requesterSymbolic : Bool) : List ℕ :=
  firsts [] ((if requesterSymbolic then [startObject] else []) ++ globalScopeObjects
    ++ dependencyClosure graph startObject)

/-- Every edge leads to an object of the graph. -/
def EdgesInRange (graph : Elf32DependencyGraph) : Prop :=
  ∀ object ∈ graph.objects, ∀ edge ∈ object.dependencies,
    edge.targetObject < graph.objects.length

lemma EdgesInRange.target_lt {graph : Elf32DependencyGraph} (h : EdgesInRange graph)
    {objectIndex target : ℕ} (ht : target ∈ dependencyTargets graph objectIndex) :
    target < graph.objects.length := by
  rw [dependencyTargets, List.getD_eq_getElem?_getD] at ht
  obtain ⟨edge, hedge, rfl⟩ := List.mem_map.mp ht
  cases hget : graph.objects[objectIndex]? with
  | none =>
      rw [hget] at hedge
      exact absurd hedge List.not_mem_nil
  | some object =>
      rw [hget] at hedge
      exact h object (List.mem_of_getElem? hget) edge hedge

/-! ### The search -/

section Search

variable {R : Type} {find : ℕ → Except Elf32GraphSymbolLookupFailure (Option R)}

/-- Search the candidates in order: the first one that does not pass decides, and
a candidate beyond the limit ends the search. -/
def searchIn (find : ℕ → Except Elf32GraphSymbolLookupFailure (Option R)) :
    ℕ → List ℕ → Except Elf32GraphSymbolLookupFailure R
  | _, [] => .error { error := .symbolNotFound }
  | 0, i :: _ => .error { error := .scopeLimitExceeded, failingObject := some i }
  | limit + 1, i :: candidates => orNext (find i) (searchIn find limit candidates)

/-- The same over a list with repetitions, `seen` being what was searched, and
followed by `next`. -/
def searchWalk (find : ℕ → Except Elf32GraphSymbolLookupFailure (Option R)) (limit : ℕ)
    (next : List ℕ → Except Elf32GraphSymbolLookupFailure R) :
    List ℕ → List ℕ → Except Elf32GraphSymbolLookupFailure R
  | seen, [] => next seen
  | seen, i :: l =>
    if i ∈ seen then searchWalk find limit next seen l
    else if seen.length ≥ limit then
      .error { error := .scopeLimitExceeded, failingObject := some i }
    else orNext (find i) (searchWalk find limit next (i :: seen) l)

lemma searchWalk_append {limit : ℕ} {next : List ℕ → Except Elf32GraphSymbolLookupFailure R}
    {seen l l' : List ℕ} :
    searchWalk find limit next seen (l ++ l')
      = searchWalk find limit (fun seen => searchWalk find limit next seen l') seen l := by
  induction l generalizing seen with
  | nil => rfl
  | cons i l ih => simp only [List.cons_append, searchWalk, ih]

lemma searchWalk_eq_searchIn {limit : ℕ} {seen l : List ℕ} (hseen : seen.length ≤ limit) :
    searchWalk find limit (fun _ => .error { error := .symbolNotFound }) seen l
      = searchIn find (limit - seen.length) (firsts seen l) := by
  induction l generalizing seen with
  | nil => rw [firsts_nil, searchWalk, searchIn]
  | cons i l ih =>
      rw [searchWalk]
      by_cases hi : i ∈ seen
      · rw [if_pos hi, firsts_cons_of_mem hi, ih hseen]
      · rw [if_neg hi, firsts_cons_of_notMem hi]
        by_cases hfull : seen.length ≥ limit
        · rw [if_pos hfull, Nat.sub_eq_zero_of_le hfull, searchIn]
        · rw [if_neg hfull, show limit - seen.length = limit - (i :: seen).length + 1 by
            simp only [List.length_cons]; omega, searchIn, ih]
          simp only [List.length_cons]
          omega

lemma searchWalk_nil (limit : ℕ) (l : List ℕ) :
    searchWalk find limit (fun _ => .error { error := .symbolNotFound }) [] l
      = searchIn find limit (firsts [] l) := searchWalk_eq_searchIn (Nat.zero_le limit)

/-- The first candidate that does not pass, within the limit, decides. -/
lemma searchIn_decided {limit : ℕ} {before after : List ℕ} {i : ℕ}
    {outcome : Except Elf32GraphSymbolLookupFailure R}
    (hbefore : ∀ j ∈ before, find j = .ok none) (hi : find i = outcome.map some)
    (hlimit : before.length < limit) : searchIn find limit (before ++ i :: after) = outcome := by
  induction before generalizing limit with
  | nil =>
      obtain ⟨limit, rfl⟩ : ∃ limit', limit = limit' + 1 :=
        ⟨limit - 1, by simp only [List.length_nil] at hlimit; omega⟩
      rw [List.nil_append, searchIn, hi]
      cases outcome with
      | error e => rfl
      | ok result => rfl
  | cons j before ih =>
      obtain ⟨limit, rfl⟩ : ∃ limit', limit = limit' + 1 :=
        ⟨limit - 1, by simp only [List.length_cons] at hlimit; omega⟩
      rw [List.cons_append, searchIn, hbefore j List.mem_cons_self]
      exact ih (fun k hk => hbefore k (List.mem_cons_of_mem j hk))
        (by simp only [List.length_cons] at hlimit; omega)

/-- No candidate within the limit decides. -/
lemma searchIn_passed {limit : ℕ} {candidates : List ℕ}
    (h : ∀ i ∈ candidates.take limit, find i = .ok none) :
    searchIn find limit candidates = match candidates[limit]? with
      | some i => .error { error := .scopeLimitExceeded, failingObject := some i }
      | none => .error { error := .symbolNotFound } := by
  induction candidates generalizing limit with
  | nil => cases limit <;> rfl
  | cons i candidates ih =>
      cases limit with
      | zero => rfl
      | succ limit =>
          rw [searchIn, h i (by simp), List.getElem?_cons_succ]
          exact ih fun j hj => h j (by simp [hj])

end Search

/-! ### The loops of the source -/

namespace GraphQuery

/-- The state of the search after searching `seen` and expanding `expanded`. -/
def stateOf (n : ℕ) (seen expanded : List ℕ) : SearchState where
  searched := marks n fun i => decide (i ∈ seen)
  expanded := marks n fun i => decide (i ∈ expanded)
  scopeObjects := seen.length

/-- The outcomes of the own lookups. -/
def outcomes (query : GraphQuery) (o : UInt32 × ℕ → Option (List UInt8)) (i : ℕ) :
    Except Elf32GraphSymbolLookupFailure (Option Elf32GraphResolvedSymbol) :=
  (query.lookupObject i).under o

variable {query : GraphQuery} {o : UInt32 × ℕ → Option (List UInt8)} {n : ℕ}
  {seen expanded : List ℕ} {i : ℕ}

lemma mark_mem (h : i < n) (l : List ℕ) :
    (marks n fun j => decide (j ∈ l)).getD i false = decide (i ∈ l) := marks_getD h _

lemma set_mem (l : List ℕ) :
    (marks n fun j => decide (j ∈ l)).set i true = marks n fun j => decide (j ∈ i :: l) := by
  rw [marks_set]
  refine marks_congr fun j _ => ?_
  by_cases h : j = i
  · subst h
    simp
  · simp [h]

/-- One search step. -/
lemma searchThen_under (hn : query.graph.objects.length = n) (hi : i < n)
    (invalidError : Elf32GraphSymbolLookupError)
    (next : SearchState → GraphRead Elf32GraphResolvedSymbol) :
    (query.searchThen i invalidError (stateOf n seen expanded) next).under o
      = if i ∈ seen then (next (stateOf n seen expanded)).under o
        else if seen.length ≥ query.options.maxScopeObjects.toNat then
          .error { error := .scopeLimitExceeded, failingObject := some i }
        else
          orNext (query.outcomes o i) ((next (stateOf n (i :: seen) expanded)).under o) := by
  have hmark : (stateOf n seen expanded).searched.getD i false = decide (i ∈ seen) :=
    mark_mem hi seen
  have hset : (stateOf n seen expanded).searched.set i true
      = marks n fun j => decide (j ∈ i :: seen) := set_mem seen
  rw [searchThen, searchObject, under_bind, under_bind, under_reject, hn,
    refuse_neg (by omega), ok_bind, hmark, hset]
  by_cases hseen : i ∈ seen
  · simp [hseen]
  · by_cases hfull : seen.length ≥ query.options.maxScopeObjects.toNat
    · simp [hseen, hfull, stateOf]
    · simp only [hseen, decide_false, Bool.false_eq_true, if_false, under_bind, under_reject,
        stateOf, hfull, outcomes]
      cases hfind : (query.lookupObject i).under o with
      | error e => simp [orNext]
      | ok result =>
          cases result with
          | none => simp [orNext]
          | some result => simp [orNext]

/-- The loop over the global scope is a walk. -/
lemma searchScope_under (hn : query.graph.objects.length = n) {scope : List ℕ}
    (hscope : ∀ i ∈ scope, i < n) {next : SearchState → GraphRead Elf32GraphResolvedSymbol}
    {after : List ℕ → Except Elf32GraphSymbolLookupFailure Elf32GraphResolvedSymbol}
    (hnext : ∀ seen, (next (stateOf n seen expanded)).under o = after seen) :
    (query.searchScope next scope (stateOf n seen expanded)).under o
      = searchWalk (query.outcomes o) query.options.maxScopeObjects.toNat after seen scope := by
  induction scope generalizing seen with
  | nil => exact hnext seen
  | cons i scope ih =>
      have hrest : ∀ j ∈ scope, j < n := fun j hj => hscope j (List.mem_cons_of_mem i hj)
      rw [searchScope, searchThen_under hn (hscope i List.mem_cons_self), searchWalk, ih hrest,
        ih hrest]

lemma pushTargets_eq {edges : List Elf32DependencyEdge}
    (h : ∀ edge ∈ edges, edge.targetObject < n) :
    pushTargets n (marks n fun j => decide (j ∈ expanded)) edges
      = some ((edges.map (·.targetObject)).filter (· ∉ expanded)) := by
  induction edges with
  | nil => rfl
  | cons edge edges ih =>
      have hlt := h edge List.mem_cons_self
      rw [pushTargets, if_neg (by omega), ih fun e he => h e (List.mem_cons_of_mem edge he),
        mark_mem hlt, List.map_cons]
      by_cases hmem : edge.targetObject ∈ expanded
      · simp [hmem]
      · simp [hmem]

/-- The edges that are still to be queued. -/
def edgesLeft (graph : Elf32DependencyGraph) (expanded : List ℕ) : ℕ :=
  ∑ i ∈ (Finset.range graph.objects.length).filter (· ∉ expanded),
    (dependencyTargets graph i).length

lemma edgesLeft_cons {graph : Elf32DependencyGraph} (hi : i < graph.objects.length)
    (hnew : i ∉ expanded) :
    edgesLeft graph expanded
      = (dependencyTargets graph i).length + edgesLeft graph (i :: expanded) := by
  have hmem : i ∈ (Finset.range graph.objects.length).filter (· ∉ expanded) :=
    Finset.mem_filter.mpr ⟨Finset.mem_range.mpr hi, hnew⟩
  rw [edgesLeft, ← Finset.add_sum_erase _ _ hmem, edgesLeft]
  congr 2
  ext j
  simp only [Finset.mem_erase, Finset.mem_filter, List.mem_cons, not_or]
  tauto

lemma sum_range_getD {α : Type} (f : α → ℕ) (d : α) (l : List α) :
    ∑ i ∈ Finset.range l.length, f (l.getD i d) = (l.map f).sum := by
  induction l with
  | nil => rfl
  | cons a l ih =>
      rw [List.length_cons, Finset.sum_range_succ', List.map_cons, List.sum_cons, ← ih, add_comm]
      rfl

lemma edgesLeft_nil (graph : Elf32DependencyGraph) :
    edgesLeft graph [] = (graph.objects.map (·.dependencies.length)).sum := by
  rw [edgesLeft, Finset.filter_true_of_mem fun _ _ => List.not_mem_nil]
  simp only [dependencyTargets, List.length_map]
  exact sum_range_getD (fun object : Elf32LoadedDependencyObject => object.dependencies.length)
    default graph.objects

/-- A round on an object that was expanded, and so searched, does nothing. -/
lemma searchClosure_skip {rounds : ℕ} {pending : List ℕ}
    (hi : i < query.graph.objects.length) (hexpanded : i ∈ expanded) (hseen : i ∈ seen) :
    (query.searchClosure (rounds + 1) (i :: pending)
        (stateOf query.graph.objects.length seen expanded)).under o
      = (query.searchClosure rounds pending
          (stateOf query.graph.objects.length seen expanded)).under o := by
  have hmark : (stateOf query.graph.objects.length seen expanded).expanded.getD i false
      = decide (i ∈ expanded) := mark_mem hi expanded
  rw [searchClosure, searchThen_under rfl hi, if_pos hseen]
  simp only [hmark, hexpanded, decide_true, if_true]

lemma stateOf_expand :
    { stateOf n seen expanded with expanded := (stateOf n seen expanded).expanded.set i true }
      = stateOf n seen (i :: expanded) := by
  simp only [stateOf, set_mem]

/-- A round on a new object searches it and queues its targets. -/
lemma searchClosure_visit (hedges : EdgesInRange query.graph) {rounds : ℕ} {pending : List ℕ}
    (hi : i < query.graph.objects.length) (hnew : i ∉ expanded) :
    let next := fun seen => (query.searchClosure rounds
      (pending ++ (dependencyTargets query.graph i).filter (· ∉ i :: expanded))
      (stateOf query.graph.objects.length seen (i :: expanded))).under o
    (query.searchClosure (rounds + 1) (i :: pending)
        (stateOf query.graph.objects.length seen expanded)).under o
      = if i ∈ seen then next seen
        else if seen.length ≥ query.options.maxScopeObjects.toNat then
          .error { error := .scopeLimitExceeded, failingObject := some i }
        else orNext (query.outcomes o i) (next (i :: seen)) := by
  have hmark : ∀ seen, (stateOf query.graph.objects.length seen expanded).expanded.getD i false
      = decide (i ∈ expanded) := fun _ => mark_mem hi expanded
  have htargets : ∀ edge ∈ (query.object i).dependencies,
      edge.targetObject < query.graph.objects.length := fun edge hedge =>
    hedges.target_lt (List.mem_map_of_mem hedge : edge.targetObject ∈ dependencyTargets query.graph i)
  have hpush : ∀ seen, pushTargets query.graph.objects.length
      ((stateOf query.graph.objects.length seen expanded).expanded.set i true)
      (query.object i).dependencies
      = some ((dependencyTargets query.graph i).filter (· ∉ i :: expanded)) := by
    intro seen
    rw [stateOf, set_mem]
    exact pushTargets_eq htargets
  rw [searchClosure, searchThen_under rfl hi]
  simp only [hmark, hnew, decide_false, Bool.false_eq_true, if_false, hpush, stateOf_expand]

/-- **The breadth-first loop is a walk along a traversal**: each object is
searched when it is first taken from the queue, unless it was searched before. -/
lemma searchClosure_under (hedges : EdgesInRange query.graph) {rounds : ℕ}
    {pending order : List ℕ} (hpending : ∀ i ∈ pending, i < query.graph.objects.length)
    (t : Traversal (dependencyTargets query.graph) expanded pending order)
    (hsub : ∀ i ∈ expanded, i ∈ seen)
    (hrounds : pending.length + edgesLeft query.graph expanded ≤ rounds) :
    (query.searchClosure rounds pending
        (stateOf query.graph.objects.length seen expanded)).under o
      = searchWalk (query.outcomes o) query.options.maxScopeObjects.toNat
          (fun _ => .error { error := .symbolNotFound }) seen order := by
  induction rounds generalizing seen expanded pending order with
  | zero =>
      obtain rfl : pending = [] := List.length_eq_zero_iff.mp (by omega)
      rw [t.order_of_nil]
      rfl
  | succ rounds ih =>
      cases pending with
      | nil =>
          rw [t.order_of_nil]
          rfl
      | cons i pending =>
          have hi := hpending i List.mem_cons_self
          have hrest : ∀ j ∈ pending, j < query.graph.objects.length :=
            fun j hj => hpending j (List.mem_cons_of_mem i hj)
          rw [List.length_cons] at hrounds
          by_cases hexp : i ∈ expanded
          · rw [searchClosure_skip hi hexp (hsub i hexp)]
            exact ih hrest (t.skip hexp) hsub (by omega)
          obtain ⟨order, rfl, t'⟩ := t.visit_head hexp
          have hqueue : ∀ j ∈ pending ++ (dependencyTargets query.graph i).filter
              (· ∉ i :: expanded), j < query.graph.objects.length := by
            intro j hj
            rcases List.mem_append.mp hj with hj | hj
            · exact hrest j hj
            · exact hedges.target_lt (List.mem_of_mem_filter hj)
          -- the object leaves the sum of the edges left with at least the targets queued
          have hleft : (pending ++ (dependencyTargets query.graph i).filter
              (· ∉ i :: expanded)).length + edgesLeft query.graph (i :: expanded) ≤ rounds := by
            have hfilter := List.length_filter_le (fun j => decide (j ∉ i :: expanded))
              (dependencyTargets query.graph i)
            rw [edgesLeft_cons hi hexp] at hrounds
            rw [List.length_append]
            omega
          rw [searchClosure_visit hedges hi hexp, searchWalk]
          by_cases hseen : i ∈ seen
          · rw [if_pos hseen, if_pos hseen]
            exact ih hqueue t' (List.forall_mem_cons.mpr ⟨hseen, hsub⟩) hleft
          · rw [if_neg hseen, if_neg hseen]
            simp only [ih hqueue t' (List.forall_mem_cons.mpr
              ⟨List.mem_cons_self, fun j hj => List.mem_cons_of_mem i (hsub j hj)⟩) hleft]

/-- The loop from one object on. -/
lemma searchClosure_start (hedges : EdgesInRange query.graph) {startObject : ℕ}
    (t : Traversal (dependencyTargets query.graph) [] [startObject]
      (dependencyClosure query.graph startObject))
    (hstart : startObject < query.graph.objects.length) (seen : List ℕ) :
    (query.searchClosure (closureRounds query.graph) [startObject]
        (stateOf query.graph.objects.length seen [])).under o
      = searchWalk (query.outcomes o) query.options.maxScopeObjects.toNat
          (fun _ => .error { error := .symbolNotFound }) seen
          (dependencyClosure query.graph startObject) := by
  refine searchClosure_under hedges (by simpa using hstart) t
    (fun i hi => absurd hi List.not_mem_nil) ?_
  rw [edgesLeft_nil, closureRounds, List.length_singleton, add_comm]
  exact Nat.add_le_add_left one_le_two _

end GraphQuery

/-! ### The whole lookup -/

section Lookup

variable {graph graph' : Elf32DependencyGraph} {startObject : ℕ}

/-- The queue that starts with an object is worked off along its closure. -/
lemma traversal_dependencyClosure (hedges : EdgesInRange graph)
    (hstart : startObject < graph.objects.length) :
    Traversal (dependencyTargets graph) [] [startObject] (dependencyClosure graph startObject) := by
  have hclosed : ∀ a ∈ Finset.range graph.objects.length, ∀ b ∈ dependencyTargets graph a,
      b ∈ Finset.range graph.objects.length := fun a _ b hb =>
    Finset.mem_range.mpr (hedges.target_lt hb)
  have hqueue : ∀ a ∈ [startObject], a ∈ Finset.range graph.objects.length := by
    simpa using hstart
  obtain ⟨order, t⟩ : ∃ order, Traversal (dependencyTargets graph) [] [startObject] order :=
    Traversal.exists_of_closed hclosed hqueue
  have horder := t.eq_breadthFirst hclosed hqueue (Finset.card_filter_le _ _)
  rw [Finset.card_range] at horder
  rwa [dependencyClosure, ← horder]

/-- The closure depends on the edges of its own objects only. -/
lemma dependencyClosure_congr (hedges : EdgesInRange graph) (hedges' : EdgesInRange graph')
    (hstart : startObject < graph.objects.length)
    (hle : graph.objects.length ≤ graph'.objects.length)
    (hsame : ∀ i ∈ dependencyClosure graph startObject,
      dependencyTargets graph' i = dependencyTargets graph i) :
    dependencyClosure graph' startObject = dependencyClosure graph startObject := by
  have t := (traversal_dependencyClosure hedges hstart).congr_succ hsame
  have hclosed : ∀ a ∈ Finset.range graph'.objects.length, ∀ b ∈ dependencyTargets graph' a,
      b ∈ Finset.range graph'.objects.length := fun a _ b hb =>
    Finset.mem_range.mpr (hedges'.target_lt hb)
  have hqueue : ∀ a ∈ [startObject], a ∈ Finset.range graph'.objects.length := by
    simpa using hstart.trans_le hle
  have horder := t.eq_breadthFirst hclosed hqueue (Finset.card_filter_le _ _)
  rw [Finset.card_range] at horder
  rw [dependencyClosure, ← horder]

lemma globalScope_checked {globalScopeObjects : List ℕ}
    (hglobal : ∀ i ∈ globalScopeObjects, i < graph.objects.length)
    {o : UInt32 × ℕ → Option (List UInt8)} :
    (globalScopeObjects.forM fun objectIndex =>
      (reject (objectIndex ≥ graph.objects.length)
        { error := .invalidGlobalScopeObject, failingObject := some objectIndex } :
          GraphRead Unit)).under o = .ok () := by
  rw [under_forM, forM_ok_iff]
  intro i hi
  rw [under_reject, refuse_neg (Nat.not_le.mpr (hglobal i hi))]

/-- **A graph lookup searches its candidates in order.** -/
theorem lookupElf32GraphSymbolImpl_eq (hedges : EdgesInRange graph)
    (hstart : startObject < graph.objects.length) (name : ByteString)
    {options : Elf32SymbolLookupOptions} (hlimit : options.maxScopeObjects ≠ 0)
    (requirement : Option Elf32SymbolVersionRequirement) {globalScopeObjects : List ℕ}
    (hglobal : ∀ i ∈ globalScopeObjects, i < graph.objects.length) (requesterSymbolic : Bool)
    (o : UInt32 × ℕ → Option (List UInt8)) :
    (lookupElf32GraphSymbolImpl graph startObject name options requirement globalScopeObjects
        requesterSymbolic).under o
      = searchIn (GraphQuery.outcomes ⟨graph, name, options, requirement⟩ o)
          options.maxScopeObjects.toNat
          (scopeCandidates graph startObject globalScopeObjects requesterSymbolic) := by
  let query : GraphQuery := ⟨graph, name, options, requirement⟩
  let notFound : List ℕ → Except Elf32GraphSymbolLookupFailure Elf32GraphResolvedSymbol :=
    fun _ => .error { error := .symbolNotFound }
  let walk := searchWalk (query.outcomes o) options.maxScopeObjects.toNat
  have hempty : List.replicate graph.objects.length false
      = marks graph.objects.length fun i => decide (i ∈ ([] : List ℕ)) := by
    simp [replicate_eq_marks]
  have hscope : ∀ seen, (query.searchScope
      (query.searchClosure (GraphQuery.closureRounds graph) [startObject]) globalScopeObjects
      (GraphQuery.stateOf graph.objects.length seen [])).under o
      = walk (fun seen => walk notFound seen (dependencyClosure graph startObject)) seen
          globalScopeObjects :=
    fun seen => GraphQuery.searchScope_under rfl hglobal
      (GraphQuery.searchClosure_start hedges (traversal_dependencyClosure hedges hstart) hstart)
  have hsearch : searchIn (query.outcomes o) options.maxScopeObjects.toNat
      (scopeCandidates graph startObject globalScopeObjects requesterSymbolic)
      = walk (fun seen => walk (fun seen => walk notFound seen
          (dependencyClosure graph startObject)) seen globalScopeObjects) []
          (if requesterSymbolic then [startObject] else []) := by
    rw [scopeCandidates, ← searchWalk_nil, searchWalk_append, searchWalk_append]
  rw [lookupElf32GraphSymbolImpl, under_bind, under_reject, refuse_neg hlimit, ok_bind, under_bind,
    under_reject, refuse_neg (by omega), ok_bind, under_bind, globalScope_checked hglobal, ok_bind]
  simp only [hempty]
  rw [hsearch]
  cases requesterSymbolic with
  | false => exact hscope []
  | true =>
      have hfirst : (query.searchThen startObject .invalidGraphStart
          (GraphQuery.stateOf graph.objects.length [] []) (query.searchScope
            (query.searchClosure (GraphQuery.closureRounds graph) [startObject])
            globalScopeObjects)).under o = _ := GraphQuery.searchThen_under rfl hstart _ _
      refine hfirst.trans ?_
      rw [hscope, hscope]
      rfl

end Lookup

/-! ### What the own lookup of an object says -/

namespace GraphQuery

variable (query : GraphQuery) (o : UInt32 × ℕ → Option (List UInt8)) (i : ℕ)

/-- The search goes on behind an object without a symbol table and behind one
whose own lookup does not find the symbol. -/
lemma outcomes_eq_none_iff : query.outcomes o i = .ok none
    ↔ (query.object i).linkerMetadata.symbolTable = none
      ∨ ∃ index failure,
          (buildElf32SymbolIndex (query.object i).linkerMetadata query.options).under o = .ok index
          ∧ (lookupElf32SymbolImpl (query.object i).load.loadBias (query.object i).linkerMetadata
              index query.name query.options query.requirement).under o = .error failure
          ∧ failure.error = .symbolNotFound := by
  rw [outcomes, lookupObject]
  cases htable : (query.object i).linkerMetadata.symbolTable with
  | none => simp
  | some table =>
      simp only [Option.isNone_some, Bool.false_eq_true, if_false, under_bind, under_mapError,
        under_attempt, reduceCtorEq, false_or]
      cases hindex : (buildElf32SymbolIndex (query.object i).linkerMetadata query.options).under o with
      | error e => simp [Except.mapError]
      | ok index =>
          simp only [Except.mapError, ok_bind, Except.ok.injEq]
          cases hlookup : (lookupElf32SymbolImpl (query.object i).load.loadBias
            (query.object i).linkerMetadata index query.name query.options query.requirement).under
              o with
          | ok symbol => simp [hlookup]
          | error failure =>
              by_cases hfound : failure.error = .symbolNotFound
              · simp [hlookup, hfound]
              · simp [hlookup, hfound]

/-- Errors and definitions carry the object they come from. -/
lemma outcomes_object :
    (∀ failure, query.outcomes o i = .error failure → failure.failingObject = some i
      ∧ (failure.error = .indexBuildFailed ∨ failure.error = .objectLookupFailed))
    ∧ ∀ result, query.outcomes o i = .ok (some result) → result.objectIndex = i := by
  rw [outcomes, lookupObject]
  split
  · simp
  simp only [under_bind, under_mapError, under_attempt]
  cases hindex : (buildElf32SymbolIndex (query.object i).linkerMetadata query.options).under o with
  | error e => simp [Except.mapError]
  | ok index =>
      simp only [Except.mapError, ok_bind]
      cases hlookup : (lookupElf32SymbolImpl (query.object i).load.loadBias
        (query.object i).linkerMetadata index query.name query.options query.requirement).under o with
      | ok symbol => simp
      | error failure =>
          by_cases hfound : failure.error = .symbolNotFound
          · simp [hfound]
          · simp [hfound]

end GraphQuery

/-! ### The scope theorem -/

section Scope

variable {graph graph' : Elf32DependencyGraph} {startObject : ℕ}

/-- Without its edges. -/
def Elf32LoadedDependencyObject.withoutEdges (object : Elf32LoadedDependencyObject) :
    Elf32LoadedDependencyObject := { object with dependencies := [] }

/-- Two graphs with the same objects up to their edges give the same own lookups. -/
lemma outcomes_congr
    (h : graph'.objects.map (·.withoutEdges) = graph.objects.map (·.withoutEdges))
    (name : ByteString) (options : Elf32SymbolLookupOptions)
    (requirement : Option Elf32SymbolVersionRequirement)
    (o : UInt32 × ℕ → Option (List UInt8)) :
    GraphQuery.outcomes ⟨graph', name, options, requirement⟩ o
      = GraphQuery.outcomes ⟨graph, name, options, requirement⟩ o := by
  funext i
  have hobject : (graph'.objects.getD i default).withoutEdges
      = (graph.objects.getD i default).withoutEdges := by
    have hget := congrArg (·[i]?) h
    simp only [List.getElem?_map] at hget
    rw [List.getD_eq_getElem?_getD, List.getD_eq_getElem?_getD]
    cases hg : graph.objects[i]? with
    | none =>
        rw [hg, Option.map_none, Option.map_eq_none_iff] at hget
        rw [hget]
    | some object =>
        rw [hg, Option.map_some, Option.map_eq_some_iff] at hget
        obtain ⟨object', hobject', heq⟩ := hget
        rw [hobject']
        exact heq
  have hparts : (graph'.objects.getD i default).linkerMetadata
        = (graph.objects.getD i default).linkerMetadata
      ∧ (graph'.objects.getD i default).load = (graph.objects.getD i default).load := by
    simp only [Elf32LoadedDependencyObject.withoutEdges,
      Elf32LoadedDependencyObject.mk.injEq] at hobject
    exact ⟨hobject.2.2.2.2.1, hobject.2.2.1⟩
  rw [GraphQuery.outcomes, GraphQuery.outcomes, GraphQuery.lookupObject, GraphQuery.lookupObject,
    GraphQuery.object, GraphQuery.object, hparts.1, hparts.2]

/-- A closure starts with its object. -/
lemma dependencyClosure_head (hstart : startObject < graph.objects.length) :
    ∃ rest, dependencyClosure graph startObject = startObject :: rest := by
  obtain ⟨levels, hlevels⟩ : ∃ levels, graph.objects.length = levels + 1 :=
    ⟨graph.objects.length - 1, by omega⟩
  rw [dependencyClosure, hlevels, breadthFirst, firsts_cons_of_notMem List.not_mem_nil]
  exact ⟨_, rfl⟩

lemma scopeCandidates_nil (hstart : startObject < graph.objects.length) :
    scopeCandidates graph startObject [] true = scopeCandidates graph startObject [] false := by
  obtain ⟨rest, hrest⟩ := dependencyClosure_head hstart
  simp [scopeCandidates, hrest, firsts]

end Scope

/-- **The scope of a graph lookup.**  The first candidate, within the limit, that
has a symbol table and whose own lookup does not miss decides; without one the
lookup reports the limit if there are more candidates, and a miss otherwise.
Edges of objects outside the closure of the start object are never followed, and
without a global scope it does not matter whether the requester is symbolic. -/
theorem graphLookup_scope {M : Type} [GuestMemory M] (memory : M) (query : GraphQuery)
    (hedges : EdgesInRange query.graph) {startObject : ℕ}
    (hstart : startObject < query.graph.objects.length) {globalScopeObjects : List ℕ}
    (hglobal : ∀ i ∈ globalScopeObjects, i < query.graph.objects.length)
    (hlimit : query.options.maxScopeObjects ≠ 0) (requesterSymbolic : Bool) :
    let own := query.outcomes (GuestMemory.reads memory)
    let limit := query.options.maxScopeObjects.toNat
    let candidates :=
      scopeCandidates query.graph startObject globalScopeObjects requesterSymbolic
    let result := fun graph globalScopeObjects requesterSymbolic =>
      (lookupElf32GraphSymbolImpl graph startObject query.name query.options query.requirement
        globalScopeObjects requesterSymbolic).under (GuestMemory.reads memory)
    (∀ before i after outcome, candidates = before ++ i :: after →
      (∀ j ∈ before, own j = .ok none) → own i = outcome.map some → before.length < limit →
        result query.graph globalScopeObjects requesterSymbolic = outcome)
    ∧ ((∀ i ∈ candidates.take limit, own i = .ok none) →
        result query.graph globalScopeObjects requesterSymbolic = match candidates[limit]? with
          | some i => .error { error := .scopeLimitExceeded, failingObject := some i }
          | none => .error { error := .symbolNotFound })
    ∧ (∀ i, own i = .ok none ↔ (query.object i).linkerMetadata.symbolTable = none
        ∨ ∃ index failure,
          (buildElf32SymbolIndex (query.object i).linkerMetadata query.options).under
              (GuestMemory.reads memory) = .ok index
          ∧ (lookupElf32SymbolImpl (query.object i).load.loadBias (query.object i).linkerMetadata
              index query.name query.options query.requirement).under
              (GuestMemory.reads memory) = .error failure
          ∧ failure.error = .symbolNotFound)
    ∧ (∀ i failure, own i = .error failure → failure.failingObject = some i
        ∧ (failure.error = .indexBuildFailed ∨ failure.error = .objectLookupFailed))
    ∧ (∀ i definition, own i = .ok (some definition) → definition.objectIndex = i)
    ∧ (∀ graph', EdgesInRange graph' →
        graph'.objects.map (·.withoutEdges) = query.graph.objects.map (·.withoutEdges) →
        (∀ i ∈ dependencyClosure query.graph startObject,
          dependencyTargets graph' i = dependencyTargets query.graph i) →
        result graph' globalScopeObjects requesterSymbolic
          = result query.graph globalScopeObjects requesterSymbolic)
    ∧ result query.graph [] true = result query.graph [] false := by
  intro own limit candidates result
  have hresult : ∀ globalScopeObjects : List ℕ,
      (∀ i ∈ globalScopeObjects, i < query.graph.objects.length) → ∀ requesterSymbolic,
      result query.graph globalScopeObjects requesterSymbolic = searchIn own limit
        (scopeCandidates query.graph startObject globalScopeObjects requesterSymbolic) :=
    fun globalScopeObjects hglobal requesterSymbolic =>
      lookupElf32GraphSymbolImpl_eq hedges hstart query.name hlimit query.requirement hglobal
        requesterSymbolic _
  refine ⟨?_, ?_, query.outcomes_eq_none_iff _, fun i => (query.outcomes_object _ i).1,
    fun i => (query.outcomes_object _ i).2, ?_, ?_⟩
  · intro before i after outcome hsplit hbefore hi hlt
    rw [hresult _ hglobal]
    change searchIn own limit candidates = outcome
    rw [hsplit]
    exact searchIn_decided hbefore hi hlt
  · intro hpassed
    rw [hresult _ hglobal]
    exact searchIn_passed hpassed
  · intro graph' hedges' hobjects hsame
    have hlength : graph'.objects.length = query.graph.objects.length := by
      simpa using congrArg List.length hobjects
    have hclosure := dependencyClosure_congr hedges hedges' hstart hlength.ge hsame
    rw [hresult _ hglobal]
    refine (lookupElf32GraphSymbolImpl_eq hedges' (hlength ▸ hstart) query.name hlimit
      query.requirement (hlength ▸ hglobal) requesterSymbolic _).trans ?_
    rw [outcomes_congr hobjects, scopeCandidates, hclosure]
    rfl
  · rw [hresult [] (by simp), hresult [] (by simp), scopeCandidates_nil hstart]

/-- Two objects that need each other, without symbol tables, and room for one. -/
def mutualQuery : GraphQuery where
  graph := { objects := [
    { identity := [97], dependencies := [⟨[98], 1⟩] },
    { identity := [98], dependencies := [⟨[97], 0⟩, ⟨[97], 0⟩] }] }
  name := [102]
  options :=
    { maxSymbols := 16, maxHashBuckets := 16, maxGnuBloomWords := 16, maxScopeObjects := 1
      maxNameBytes := 16, maxVersionRecords := 16 }
  requirement := none

theorem graphLookup_scope_mutual :
    (lookupElf32GraphSymbolImpl mutualQuery.graph 0 mutualQuery.name mutualQuery.options
        mutualQuery.requirement [1] true).under (GuestMemory.reads vacantMemory)
      = .error { error := .scopeLimitExceeded, failingObject := some 1 } := by
  have hedges : EdgesInRange mutualQuery.graph := by
    unfold EdgesInRange
    decide
  have hglobal : ∀ i ∈ [1], i < mutualQuery.graph.objects.length := by decide
  have h := graphLookup_scope vacantMemory mutualQuery hedges (by decide : 0 < 2) hglobal
    (by decide) true
  exact h.2.1 (by decide)

end LibA32Android
