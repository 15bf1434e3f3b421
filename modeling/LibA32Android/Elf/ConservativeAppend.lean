/-
Appending a root does not disturb lookups.

* `searchIn_stable`: a search that ends in a definition or in a miss is decided by
  own lookups that are stable;
* `lookupElf32GraphSymbol_extends`: such an answer stays the same when the graph
  gets more objects and the memory more pages;
* `appendElf32LinkMapRoot_conservative`: a successful append does no more than that.
-/
import LibA32Android.Elf.GraphScope
import LibA32Android.Elf.LinkMapRuns
import LibA32Android.Elf.StableLookup

namespace LibA32Android

open Foundations QueryProgram MappedGuestMemory

/-- A definition or a miss. -/
def IsDefinite (answer : Except Elf32GraphSymbolLookupFailure Elf32GraphResolvedSymbol) : Prop :=
  Settled (fun failure => failure.error = .symbolNotFound) answer

lemma searchIn_stable {find find' : ℕ →
      Except Elf32GraphSymbolLookupFailure (Option Elf32GraphResolvedSymbol)} {candidates : List ℕ}
    (herror : ∀ i failure, find i = .error failure → failure.error ≠ .symbolNotFound)
    (hsame : ∀ i ∈ candidates, ∀ found, find i = .ok found → find' i = .ok found) {limit : ℕ}
    (hdefinite : IsDefinite (searchIn find limit candidates)) :
    searchIn find' limit candidates = searchIn find limit candidates := by
  induction candidates generalizing limit with
  | nil => cases limit <;> rfl
  | cons i candidates ih =>
      cases limit with
      | zero => rfl
      | succ limit =>
          rw [searchIn] at hdefinite ⊢
          rw [searchIn]
          cases hfind : find i with
          | error failure =>
              rw [hfind] at hdefinite
              exact absurd (settled_error.mp hdefinite) (herror i failure hfind)
          | ok found =>
              rw [hsame i List.mem_cons_self found hfind]
              refine orNext_congr fun hmiss => ih (fun j hj => hsame j (List.mem_cons_of_mem i hj)) ?_
              rw [hfind, hmiss] at hdefinite
              exact hdefinite

section Graphs

variable {graph graph' : Elf32DependencyGraph} {startObject : ℕ}

lemma EdgesInRange.closure_lt (h : EdgesInRange graph)
    (hstart : startObject < graph.objects.length) {i : ℕ}
    (hi : i ∈ dependencyClosure graph startObject) : i < graph.objects.length :=
  mem_of_mem_breadthFirst (S := (· < graph.objects.length)) (fun _ _ _ hb => h.target_lt hb)
    (by simpa using hstart) i hi

lemma GraphOk.edgesInRange (h : GraphOk graph.objects) : EdgesInRange graph :=
  fun object hobject edge hedge => (h.edges object hobject edge hedge).2

/-- **More objects and more pages**: a definite answer stays as it is. -/
theorem lookupElf32GraphSymbol_extends {o o' : UInt32 × ℕ → Option (List UInt8)}
    (hext : Extends o o') (hedges : EdgesInRange graph) (hedges' : EdgesInRange graph')
    (hkept : graph.objects <+: graph'.objects) (hstart : startObject < graph.objects.length)
    (name : ByteString) (options : Elf32SymbolLookupOptions)
    (hdefinite : IsDefinite ((lookupElf32GraphSymbol graph startObject name options).under o)) :
    (lookupElf32GraphSymbol graph' startObject name options).under o'
      = (lookupElf32GraphSymbol graph startObject name options).under o := by
  have hobject : ∀ i < graph.objects.length,
      graph'.objects.getD i default = graph.objects.getD i default := by
    obtain ⟨new, hnew⟩ := hkept
    intro i hi
    rw [← hnew, List.getD_eq_getElem?_getD, List.getElem?_append_left hi,
      ← List.getD_eq_getElem?_getD]
  have hclosure := dependencyClosure_congr hedges hedges' hstart hkept.length_le fun i hi => by
    rw [dependencyTargets, dependencyTargets, hobject i (hedges.closure_lt hstart hi)]
  rw [lookupElf32GraphSymbol] at hdefinite ⊢
  rw [lookupElf32GraphSymbol]
  by_cases hlimit : options.maxScopeObjects = 0
  · -- options without room for an object are refused, which is no definite answer
    rw [lookupElf32GraphSymbolImpl, under_bind, under_reject, refuse_pos hlimit, error_bind]
      at hdefinite
    exact absurd (settled_error.mp hdefinite) (by decide)
  rw [lookupElf32GraphSymbolImpl_eq hedges hstart name hlimit none (by simp) false o] at hdefinite ⊢
  rw [lookupElf32GraphSymbolImpl_eq hedges' (hstart.trans_le hkept.length_le) name hlimit none
    (by simp) false o', scopeCandidates, hclosure]
  refine searchIn_stable (fun i failure hfailure => ?_) (fun i hi found hfound => ?_) hdefinite
  · rcases ((GraphQuery.outcomes_object _ _ i).1 failure hfailure).2 with h | h
    · simp [h]
    · simp [h]
  · have hi : i < graph.objects.length := by
      refine hedges.closure_lt hstart ?_
      simpa [scopeCandidates] using (mem_firsts.mp hi).1
    have hlookup : GraphQuery.lookupObject ⟨graph', name, options, none⟩ i
        = GraphQuery.lookupObject ⟨graph, name, options, none⟩ i := by
      rw [GraphQuery.lookupObject, GraphQuery.lookupObject, GraphQuery.object, GraphQuery.object,
        hobject i hi]
    have hstable := GraphQuery.lookupObject_stable ⟨graph, name, options, none⟩ i o o' hext
      (by rw [GraphQuery.outcomes] at hfound; rw [hfound]; exact settled_ok found)
    rw [GraphQuery.outcomes, hlookup, hstable]
    exact hfound

end Graphs

/-- **Appending a root is a conservative extension for plain lookup.**  After a
successful append every lookup from an object that was there before, under any name
and options, that gave a definition or a miss gives the same answer. -/
theorem appendElf32LinkMapRoot_conservative {P : Type} [Elf32DependencyProvider P]
    (memory : MappedGuestMemory) (linkMap : Elf32LinkMap) (root : Elf32DependencyLoadSource)
    (provider : P) (options : Elf32DependencyLoadOptions) (rootPolicy : Elf32LinkMapRootPolicy)
    {result : Elf32DependencyLoadResult} {linkMap' : Elf32LinkMap} {memory' : MappedGuestMemory}
    {provider' : P}
    (happend : appendElf32LinkMapRoot memory linkMap root provider options rootPolicy
      = (result, linkMap', memory', provider'))
    (hsuccess : result.failure = none) {startObject : ℕ}
    (hstart : startObject < linkMap.graph.objects.length) (name : ByteString)
    (lookupOptions : Elf32SymbolLookupOptions)
    (hdefinite : IsDefinite ((lookupElf32GraphSymbol linkMap.graph startObject name
      lookupOptions).under (GuestMemory.reads memory))) :
    (lookupElf32GraphSymbol linkMap'.graph startObject name lookupOptions).under
        (GuestMemory.reads memory')
      = (lookupElf32GraphSymbol linkMap.graph startObject name lookupOptions).under
        (GuestMemory.reads memory) := by
  have houtcome := appendElf32LinkMapRoot_outcome memory linkMap root provider options rootPolicy
  rw [happend] at houtcome
  cases houtcome with
  | refused failure _ => exact absurd hsuccess (by simp)
  | reused hok rootIndex hroot => rfl
  | failed hok failure ctx hctx =>
      exact absurd hsuccess (by simp [rollbackFailure])
  | appended hok ctx hctx =>
      have hext := hctx.acquired.frame.reads_extend hctx.acquired.free
      exact lookupElf32GraphSymbol_extends hext hok.graph.edgesInRange
        hctx.graph.ok.edgesInRange hctx.graph.kept hstart name lookupOptions hdefinite

/-- A page with a string table, a symbol table with the function `f`, and a SysV hash
table. -/
def symbolBytes : List UInt8 :=
  [0, 102, 0, 0]
    ++ List.replicate 16 0
    ++ [1, 0, 0, 0, 0x10, 0, 0, 0, 4, 0, 0, 0, 0x12, 0, 1, 0]
    ++ encodeU32Le 1 ++ encodeU32Le 2 ++ encodeU32Le 1 ++ encodeU32Le 0 ++ encodeU32Le 0

def symbolMemory : MappedGuestMemory :=
  (GuestMemory.write (vacantMemory.map 0x1000 4096 (.read ||| .write)).2 0x1000 symbolBytes).2

/-- A link map whose one object has these tables. -/
def symbolLinkMap : Elf32LinkMap where
  graph := { objects := [
    { identity := [97]
      linkerMetadata :=
        { stringTable := some ⟨0x1000, 3⟩, symbolTable := some ⟨0x1004, 16⟩
          sysvHashTable := some ⟨0x1024⟩ } }] }

def lookupF : Elf32SymbolLookupOptions where
  maxSymbols := 16
  maxHashBuckets := 16
  maxGnuBloomWords := 16
  maxScopeObjects := 16
  maxNameBytes := 16
  maxVersionRecords := 16

theorem appendElf32LinkMapRoot_conservative_found :
    let call := appendElf32LinkMapRoot symbolMemory symbolLinkMap ⟨[98], tinyImage⟩
      (SourceTable.mk []) wideOptions .global
    call.2.1.graph.objects.length = 2
      ∧ ((lookupElf32GraphSymbol call.2.1.graph 0 [102] lookupF).under
          (GuestMemory.reads call.2.2.1)).map (·.symbol.guestValue) = .ok 0x10 := by
  intro call
  have hfound : ((lookupElf32GraphSymbol symbolLinkMap.graph 0 [102] lookupF).under
      (GuestMemory.reads symbolMemory)).map (·.symbol.guestValue) = .ok 0x10 := by
    decide +kernel
  have hdefinite : IsDefinite ((lookupElf32GraphSymbol symbolLinkMap.graph 0 [102] lookupF).under
      (GuestMemory.reads symbolMemory)) := by
    intro failure hfailure
    rw [hfailure] at hfound
    cases hfound
  have hsuccess : call.1.failure = none := by decide +kernel
  have h := appendElf32LinkMapRoot_conservative symbolMemory symbolLinkMap ⟨[98], tinyImage⟩
    (SourceTable.mk []) wideOptions .global (Eq.refl call) hsuccess (by decide : 0 < 1) [102]
    lookupF hdefinite
  exact ⟨by decide +kernel, (congrArg _ h).trans hfound⟩

end LibA32Android
