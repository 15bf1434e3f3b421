/-
Whatever the tables in memory hold, a lookup answers with a definition.

* `LookupQuery.Accepts`: all that the checks on a candidate establish;
* `lookupElf32SymbolImpl_accepts`: hash tables only choose among the candidates, so a
  forged chain or bucket can hide a definition but not make one up;
* `lookupElf32GraphSymbolImpl_defines`: the same for the search through a graph, whose
  edges need not be in range, together with the scope of the object that answers;
* `relocation_bindings`: every word that a relocation call stores for a symbol comes
  from such a definition, or is that of a weak reference without one.
-/
import LibA32Android.Elf.GraphScope
import LibA32Android.Elf.RelocationEffect
import LibA32Android.Foundations.DepthFirst

namespace LibA32Android

open Foundations QueryProgram

/-! ### One object -/

/-- A symbol of the object that the query looks at, with everything that makes it a
definition of the name: it lies in the table, has the name and the version, is of a
supported kind, and its value does not wrap. -/
structure LookupQuery.Accepts (query : LookupQuery) (o : ReadOracle)
    (found : Elf32ResolvedSymbol) : Prop where
  index_ne : found.symbolIndex ≠ 0
  index_lt : found.symbolIndex < query.symbolCount
  symbol : (readSymbol query.symbolTable found.symbolIndex :
    GuestRead Elf32SymbolLookupFailure _).under o = .ok (some found.symbol)
  string : (readElf32StringTableEntry query.stringTable found.symbol.nameOffset
    { maxStringBytes := query.options.maxNameBytes }).under o = .ok query.name
  name : found.name = query.name
  binding : found.symbol.binding = 1 ∨ found.symbol.binding = 2
  visibility : found.symbol.visibility = 0 ∨ found.symbol.visibility = 3
  defined : found.symbol.sectionIndex ≠ 0
  section_kind : found.symbol.sectionIndex < 0xff00 ∨ found.symbol.sectionIndex = 0xfff1
  type : found.symbol.type = 0 ∨ found.symbol.type = 1 ∨ found.symbol.type = 2
  version : (matchElf32SymbolVersion query.metadata found.symbolIndex query.requirement
    (versionOptions query.options)).under o = .ok true
  value : found.guestValue.toNat
    = (if found.symbol.sectionIndex = 0xfff1 then 0 else query.loadBias.toNat)
      + found.symbol.value.toNat

/-- The checks on the kind of a symbol. -/
lemma checkSupported_ok {symbol : Elf32Symbol} {raw : List UInt8} {u : Unit}
    (h : checkSupported symbol raw = .ok u) :
    (symbol.visibility = 0 ∨ symbol.visibility = 3)
      ∧ (symbol.sectionIndex < 0xff00 ∨ symbol.sectionIndex = 0xfff1)
      ∧ (symbol.type = 0 ∨ symbol.type = 1 ∨ symbol.type = 2) := by
  rw [checkSupported, refuse_bind_ok_iff] at h
  obtain ⟨hvisibility, h⟩ := h
  rw [refuse_bind_ok_iff] at h
  obtain ⟨hsection, h⟩ := h
  rw [refuse_bind_ok_iff] at h
  obtain ⟨htype, -⟩ := h
  have hlow : symbol.sectionIndex < 0xff00 ↔ ¬symbol.sectionIndex ≥ 0xff00 := UInt16.not_le.symm
  exact ⟨by tauto, by tauto, by tauto⟩

lemma symbolGuestValue_ok {loadBias guestValue : UInt32} {symbol : Elf32Symbol}
    (h : symbolGuestValue loadBias symbol = .ok guestValue) :
    guestValue.toNat = (if symbol.sectionIndex = 0xfff1 then 0 else loadBias.toNat)
      + symbol.value.toNat := by
  rw [symbolGuestValue] at h
  by_cases habsolute : symbol.sectionIndex = 0xfff1
  · rw [if_neg (not_not.mpr habsolute)] at h
    cases h
    rw [if_pos habsolute, Nat.zero_add]
  · rw [if_pos habsolute] at h
    rw [if_neg habsolute]
    split at h
    · cases h
    · rename_i value hvalue
      cases h
      exact (checkedAddGuestAddress_eq_some.mp hvalue).2

namespace LookupQuery

variable {query : LookupQuery} {o : ReadOracle} {found : Elf32ResolvedSymbol}

/-- **A candidate that is not passed over is a definition.** -/
lemma evaluateCandidate_accepts {symbolIndex : UInt32}
    (h : (query.evaluateCandidate symbolIndex).under o = .ok (some found)) :
    query.Accepts o found := by
  rw [evaluateCandidate, under_bind, under_reject, refuse_bind_ok_iff] at h
  obtain ⟨hindex, h⟩ := h
  rw [under_bind, bind_ok_iff] at h
  obtain ⟨symbol, hsymbol, h⟩ := h
  cases symbol with
  | none => cases h
  | some symbol =>
      rw [under_bind, bind_ok_iff] at h
      obtain ⟨symbolName, hname, h⟩ := h
      rw [under_mapError, mapError_ok_iff] at hname
      rw [under_ite] at h
      split at h
      · cases h
      rename_i hsame
      obtain rfl : symbolName = query.name := not_not.mp hsame
      rw [under_ite] at h
      split at h
      · cases h
      rename_i hpublic
      rw [evaluateDefinition, under_bind, under_reject, refuse_bind_ok_iff] at h
      obtain ⟨hbinding, h⟩ := h
      rw [under_bind, bind_ok_iff] at h
      obtain ⟨raw, -, h⟩ := h
      cases raw with
      | none => cases h
      | some raw =>
          rw [under_bind, under_ofExcept, bind_ok_iff] at h
          obtain ⟨⟨⟩, hsupported, h⟩ := h
          obtain ⟨hvisibility, hsection, htype⟩ := checkSupported_ok hsupported
          rw [under_bind, under_mapError, bind_ok_iff] at h
          obtain ⟨matching, hmatching, h⟩ := h
          rw [mapError_ok_iff] at hmatching
          cases matching with
          | false => cases h
          | true =>
              rw [Bool.not_true, if_neg Bool.false_ne_true, under_bind, under_ofExcept,
                bind_ok_iff] at h
              obtain ⟨guestValue, hvalue, h⟩ := h
              cases h
              simp only [Elf32Symbol.isPrivate, decide_eq_true_eq, not_or] at hpublic
              rw [not_or] at hindex
              exact ⟨hindex.1, UInt32.not_le.mp hindex.2, hsymbol, hname, rfl, by tauto,
                hvisibility, hpublic.2.1, hsection, htype, hmatching, symbolGuestValue_ok hvalue⟩

lemma orElse_accepts {symbolIndex : UInt32}
    {next : GuestRead Elf32SymbolLookupFailure Elf32ResolvedSymbol}
    (h : (query.orElse symbolIndex next).under o = .ok found)
    (hnext : next.under o = .ok found → query.Accepts o found) : query.Accepts o found := by
  rw [orElse_under] at h
  rcases orNext_eq_ok h with h | h
  · exact evaluateCandidate_accepts h
  · exact hnext h

/-- The GNU chain, whatever its words say. -/
lemma walkGnuChain_accepts {index : Elf32GnuHashIndex} {hash : UInt32} {rounds : ℕ}
    {symbolIndex : UInt32}
    (h : (query.walkGnuChain index hash rounds symbolIndex).under o = .ok found) :
    query.Accepts o found := by
  induction rounds generalizing symbolIndex with
  | zero => cases h
  | succ rounds ih =>
      rw [walkGnuChain, under_bind, bind_ok_iff] at h
      obtain ⟨chainHash, -, h⟩ := h
      have hnext : (if chainHash &&& 1 ≠ 0 then .fail { error := .symbolNotFound }
          else query.walkGnuChain index hash rounds (symbolIndex + 1)).under o = .ok found →
          query.Accepts o found := by
        intro h
        split at h
        · cases h
        · exact ih h
      rw [under_ite] at h
      split at h
      · exact orElse_accepts h hnext
      · exact hnext h

/-- The SysV chain, wherever its links lead. -/
lemma walkSysvChain_accepts {index : Elf32SysvHashIndex} {hops : ℕ} {symbolIndex : UInt32}
    (h : (query.walkSysvChain index hops symbolIndex).under o = .ok found) :
    query.Accepts o found := by
  induction hops generalizing symbolIndex with
  | zero =>
      rw [walkSysvChain] at h
      split at h <;> cases h
  | succ hops ih =>
      rw [walkSysvChain] at h
      split at h
      · cases h
      refine orElse_accepts h fun h => ?_
      rw [under_bind, bind_ok_iff] at h
      obtain ⟨next, -, h⟩ := h
      rw [under_bind, under_reject, refuse_bind_ok_iff] at h
      exact ih h.2

lemma lookupGnu_accepts {index : Elf32GnuHashIndex}
    (h : (query.lookupGnu index).under o = .ok found) : query.Accepts o found := by
  rw [lookupGnu, under_bind, bind_ok_iff] at h
  obtain ⟨bloomWord, -, h⟩ := h
  rw [under_bind, under_reject, refuse_bind_ok_iff] at h
  obtain ⟨-, h⟩ := h
  rw [under_bind, bind_ok_iff] at h
  obtain ⟨symbolIndex, -, h⟩ := h
  rw [under_bind, under_reject, refuse_bind_ok_iff] at h
  obtain ⟨-, h⟩ := h
  rw [under_bind, under_reject, refuse_bind_ok_iff] at h
  exact walkGnuChain_accepts h.2

lemma lookupSysv_accepts {index : Elf32SysvHashIndex}
    (h : (query.lookupSysv index).under o = .ok found) : query.Accepts o found := by
  rw [lookupSysv, under_bind, bind_ok_iff] at h
  obtain ⟨symbolIndex, -, h⟩ := h
  rw [under_bind, under_reject, refuse_bind_ok_iff] at h
  exact walkSysvChain_accepts h.2

end LookupQuery

/-- **The lookup in one object.** -/
lemma lookupElf32SymbolImpl_accepts {o : ReadOracle} {loadBias : UInt32}
    {metadata : Elf32LinkerMetadata} {index : Elf32SymbolIndex} {name : ByteString}
    {options : Elf32SymbolLookupOptions} {requirement : Option Elf32SymbolVersionRequirement}
    {found : Elf32ResolvedSymbol}
    (h : (lookupElf32SymbolImpl loadBias metadata index name options requirement).under o
      = .ok found) :
    name ≠ [] ∧ ∃ stringTable symbolTable, metadata.stringTable = some stringTable
      ∧ metadata.symbolTable = some symbolTable
      ∧ LookupQuery.Accepts ⟨loadBias, metadata, stringTable, symbolTable, index.symbolCount, name,
          options, requirement⟩ o found := by
  rw [lookupElf32SymbolImpl, under_bind, under_reject, refuse_bind_ok_iff] at h
  obtain ⟨-, h⟩ := h
  rw [under_bind, under_reject, refuse_bind_ok_iff] at h
  obtain ⟨hname, h⟩ := h
  refine ⟨hname, ?_⟩
  split at h
  · rename_i stringTable symbolTable hstrings hsymbols
    refine ⟨stringTable, symbolTable, hstrings, hsymbols, ?_⟩
    rw [under_bind, under_reject, refuse_bind_ok_iff] at h
    obtain ⟨-, h⟩ := h
    split at h
    · exact LookupQuery.lookupGnu_accepts h
    · exact LookupQuery.lookupSysv_accepts h
    · cases h
  · cases h

/-! ### A graph -/

/-- The object may answer for `startObject`: it is in the global scope, or the edges
lead to it. -/
def InScope (graph : Elf32DependencyGraph) (startObject : ℕ) (globalScopeObjects : List ℕ)
    (i : ℕ) : Prop :=
  i < graph.objects.length
    ∧ (i ∈ globalScopeObjects ∨ Reaches (dependencyTargets graph) startObject i)

namespace GraphQuery

/-- A definition of what the query asks for, in the object that it names, with the
table as the index of that object counts it. -/
def Defines (query : GraphQuery) (o : ReadOracle) (found : Elf32GraphResolvedSymbol) : Prop :=
  let object := query.object found.objectIndex
  query.name ≠ [] ∧ ∃ index stringTable symbolTable,
    (buildElf32SymbolIndex object.linkerMetadata query.options).under o = .ok index
    ∧ object.linkerMetadata.stringTable = some stringTable
    ∧ object.linkerMetadata.symbolTable = some symbolTable
    ∧ LookupQuery.Accepts ⟨object.load.loadBias, object.linkerMetadata, stringTable, symbolTable,
        index.symbolCount, query.name, query.options, query.requirement⟩ o found.symbol

variable {query : GraphQuery} {o : ReadOracle} {found : Elf32GraphResolvedSymbol} {i : ℕ}

lemma outcomes_defines (h : query.outcomes o i = .ok (some found)) :
    found.objectIndex = i ∧ query.Defines o found := by
  have hobject := (query.outcomes_object o i).2 found h
  refine ⟨hobject, ?_⟩
  rw [outcomes, lookupObject, under_ite] at h
  split at h
  · cases h
  rw [under_bind, under_mapError, bind_ok_iff] at h
  obtain ⟨index, hindex, h⟩ := h
  rw [mapError_ok_iff] at hindex
  rw [under_bind, under_attempt, ok_bind] at h
  split at h
  · rename_i symbol hlookup
    cases h
    obtain ⟨hname, stringTable, symbolTable, hstrings, hsymbols, haccepts⟩ :=
      lookupElf32SymbolImpl_accepts hlookup
    exact ⟨hname, index, stringTable, symbolTable, hindex, hstrings, hsymbols, haccepts⟩
  · rw [under_ite] at h
    split at h <;> cases h

/-- One search step: the object answers, or what follows does. -/
lemma searchThen_ok {invalidError : Elf32GraphSymbolLookupError} {state : SearchState}
    {next : SearchState → GraphRead Elf32GraphResolvedSymbol}
    (h : (query.searchThen i invalidError state next).under o = .ok found) :
    i < query.graph.objects.length
      ∧ (query.outcomes o i = .ok (some found) ∨ ∃ state', (next state').under o = .ok found) := by
  rw [searchThen, under_bind, bind_ok_iff] at h
  obtain ⟨⟨answer, state'⟩, hsearch, h⟩ := h
  rw [searchObject, under_bind, under_reject, refuse_bind_ok_iff] at hsearch
  obtain ⟨hrange, hsearch⟩ := hsearch
  refine ⟨Nat.not_le.mp hrange, ?_⟩
  cases answer with
  | none => exact .inr ⟨state', h⟩
  | some answer =>
      cases h
      rw [under_ite] at hsearch
      split at hsearch
      · cases hsearch
      rw [under_bind, under_reject, refuse_bind_ok_iff, under_bind, bind_ok_iff] at hsearch
      obtain ⟨-, result, hresult, hsearch⟩ := hsearch
      cases hsearch
      exact .inl hresult

/-- The global scope. -/
lemma searchScope_ok {next : SearchState → GraphRead Elf32GraphResolvedSymbol} {scope : List ℕ}
    {state : SearchState} (h : (query.searchScope next scope state).under o = .ok found) :
    (∃ i ∈ scope, i < query.graph.objects.length ∧ query.outcomes o i = .ok (some found))
      ∨ ∃ state', (next state').under o = .ok found := by
  induction scope generalizing state with
  | nil => exact .inr ⟨state, h⟩
  | cons i scope ih =>
      rw [searchScope] at h
      obtain ⟨hi, hanswer | ⟨state', h⟩⟩ := searchThen_ok h
      · exact .inl ⟨i, List.mem_cons_self, hi, hanswer⟩
      · refine (ih h).imp_left ?_
        rintro ⟨j, hj, hanswer⟩
        exact ⟨j, List.mem_cons_of_mem i hj, hanswer⟩

lemma mem_of_pushTargets {n : ℕ} {expanded : List Bool} {edges : List Elf32DependencyEdge}
    {targets : List ℕ} (h : pushTargets n expanded edges = some targets) {j : ℕ}
    (hj : j ∈ targets) : j ∈ edges.map (·.targetObject) := by
  induction edges generalizing targets with
  | nil =>
      cases h
      exact hj
  | cons edge edges ih =>
      rw [pushTargets] at h
      split at h
      · cases h
      obtain ⟨rest, hrest, rfl⟩ := Option.map_eq_some_iff.mp h
      rw [List.map_cons]
      split at hj
      · exact List.mem_cons_of_mem _ (ih hrest hj)
      · rcases List.mem_cons.mp hj with rfl | hj
        · exact List.mem_cons_self
        · exact List.mem_cons_of_mem _ (ih hrest hj)

/-- The breadth-first loop: the edges lead from the start object to everything in the
queue, and so to the object that answers. -/
lemma searchClosure_ok {startObject rounds : ℕ} {pending : List ℕ} {state : SearchState}
    (hpending : ∀ j ∈ pending, Reaches (dependencyTargets query.graph) startObject j)
    (h : (query.searchClosure rounds pending state).under o = .ok found) :
    ∃ i, i < query.graph.objects.length
      ∧ Reaches (dependencyTargets query.graph) startObject i
      ∧ query.outcomes o i = .ok (some found) := by
  induction rounds generalizing pending state with
  | zero => cases h
  | succ rounds ih =>
      cases pending with
      | nil => cases h
      | cons i pending =>
          have hi := hpending i List.mem_cons_self
          have hrest : ∀ j ∈ pending, Reaches (dependencyTargets query.graph) startObject j :=
            fun j hj => hpending j (List.mem_cons_of_mem i hj)
          rw [searchClosure] at h
          obtain ⟨hlt, hanswer | ⟨state', h⟩⟩ := searchThen_ok h
          · exact ⟨i, hlt, hi, hanswer⟩
          split at h
          · exact ih hrest h
          dsimp only at h
          split at h
          · cases h
          rename_i targets htargets
          refine ih (fun j hj => ?_) h
          rcases List.mem_append.mp hj with hj | hj
          · exact hrest j hj
          · exact hi.tail (mem_of_pushTargets htargets hj)

end GraphQuery

/-- **The lookup in a graph** answers with a definition in an object of its scope. -/
lemma lookupElf32GraphSymbolImpl_defines {o : ReadOracle} (query : GraphQuery) {startObject : ℕ}
    {globalScopeObjects : List ℕ} {requesterSymbolic : Bool} {found : Elf32GraphResolvedSymbol}
    (h : (lookupElf32GraphSymbolImpl query.graph startObject query.name query.options
      query.requirement globalScopeObjects requesterSymbolic).under o = .ok found) :
    InScope query.graph startObject globalScopeObjects found.objectIndex
      ∧ query.Defines o found := by
  -- it is enough that some object of the scope answers
  suffices hanswer : ∃ i, InScope query.graph startObject globalScopeObjects i
      ∧ query.outcomes o i = .ok (some found) by
    obtain ⟨i, hscope, hanswer⟩ := hanswer
    obtain ⟨rfl, hdefines⟩ := GraphQuery.outcomes_defines hanswer
    exact ⟨hscope, hdefines⟩
  rw [lookupElf32GraphSymbolImpl, under_bind, under_reject, refuse_bind_ok_iff] at h
  obtain ⟨-, h⟩ := h
  rw [under_bind, under_reject, refuse_bind_ok_iff] at h
  obtain ⟨-, h⟩ := h
  rw [under_bind, bind_ok_iff] at h
  obtain ⟨-, -, h⟩ := h
  have hscope : ∀ {state}, (query.searchScope
      (query.searchClosure (GraphQuery.closureRounds query.graph) [startObject])
      globalScopeObjects state).under o = .ok found →
      ∃ i, InScope query.graph startObject globalScopeObjects i
        ∧ query.outcomes o i = .ok (some found) := by
    intro state h
    rcases GraphQuery.searchScope_ok h with ⟨i, hmem, hi, hanswer⟩ | ⟨state', h⟩
    · exact ⟨i, ⟨hi, .inl hmem⟩, hanswer⟩
    · have hstart : ∀ j ∈ [startObject],
          Reaches (dependencyTargets query.graph) startObject j := by
        intro j hj
        rw [List.mem_singleton.mp hj]
      obtain ⟨i, hi, hreach, hanswer⟩ := GraphQuery.searchClosure_ok hstart h
      exact ⟨i, ⟨hi, .inr hreach⟩, hanswer⟩
  dsimp only at h
  split at h
  · obtain ⟨hlt, hanswer | ⟨state', h⟩⟩ := GraphQuery.searchThen_ok h
    · exact ⟨startObject, ⟨hlt, .inr .refl⟩, hanswer⟩
    · exact hscope h
  · exact hscope h

/-! ### Relocations -/

/-- Where the symbol value of a reference comes from, and its Thumb bit: a definition in
the scope of the object, of the name that the object's own tables give the symbol and of
the version that they require, or 0 for a weak reference. -/
inductive BoundValue (o : ReadOracle) (graph : Elf32DependencyGraph) (objectIndex : ℕ)
    (options : Elf32SymbolLookupOptions) (symbolIndex : UInt32) : UInt32 → Bool → Prop
  | definition {symbol : Elf32Symbol} {name : ByteString}
      {requirement : Option Elf32SymbolVersionRequirement} {found : Elf32GraphResolvedSymbol}
      (named : SymbolNamed o (relocatedObject graph objectIndex).linkerMetadata options
        symbolIndex symbol name)
      (required : (resolveElf32SymbolVersionRequirement graph objectIndex symbolIndex
        (versionOptions options)).under o = .ok requirement)
      (scope : InScope graph objectIndex options.globalScopeObjects found.objectIndex)
      (defines : GraphQuery.Defines ⟨graph, name, options, requirement⟩ o found) :
      BoundValue o graph objectIndex options symbolIndex found.symbol.guestValue
        (found.symbol.symbol.type = 2 ∧ found.symbol.symbol.value % 2 = 1)
  | weak {symbol : Elf32Symbol} {name : ByteString}
      (named : SymbolNamed o (relocatedObject graph objectIndex).linkerMetadata options
        symbolIndex symbol name)
      (weak : symbol.binding = 2) :
      BoundValue o graph objectIndex options symbolIndex 0 false

lemma ReferenceValue.bound {o : ReadOracle} {graph : Elf32DependencyGraph} {objectIndex : ℕ}
    {options : Elf32SymbolLookupOptions} {symbolIndex value : UInt32} {thumb : Bool}
    (h : ReferenceValue o graph objectIndex options symbolIndex value thumb) :
    BoundValue o graph objectIndex options symbolIndex value thumb := by
  cases h with
  | weak hnamed hweak _ _ => exact .weak hnamed hweak
  | @found symbol name definition hnamed hlookup =>
      rw [lookupElf32GraphSymbolForReference, under_bind, under_reject, refuse_bind_ok_iff]
        at hlookup
      obtain ⟨-, hlookup⟩ := hlookup
      rw [under_bind, under_reject, refuse_bind_ok_iff] at hlookup
      obtain ⟨-, hlookup⟩ := hlookup
      rw [under_bind, under_mapError, bind_ok_iff] at hlookup
      obtain ⟨requirement, hrequirement, hlookup⟩ := hlookup
      obtain ⟨hscope, hdefines⟩ :=
        lookupElf32GraphSymbolImpl_defines ⟨graph, name, options, requirement⟩ hlookup
      exact .definition hnamed (mapError_ok_iff.mp hrequirement) hscope hdefines

/-- **What symbol words are bound to.**  Take any memory, with hash, symbol, string and
version tables as hostile as one likes, and any graph.  When one of the three relocation
calls succeeds, each word that it stored for an entry with a symbol is the relocated
word of a value that is bound: to a definition with the name and version that the
relocated object asks for, inside the symbol table of an object in scope, or to 0
because the reference is weak. -/
theorem relocation_bindings (call : RelocationCall) {M : Type} [LawfulGuestMemory M] (memory : M)
    (graph : Elf32DependencyGraph) (objectIndex : ℕ) (options : Elf32RelocationOptions)
    (hok : (call.apply memory graph objectIndex options).1.error = none) :
    let requester := relocatedObject graph objectIndex
    ∀ write ∈ (call.apply memory graph objectIndex options).1.application.writes,
      symbolBearingType write.type = true →
      ∃ entry value thumb,
        (write.table, entry) ∈ call.records (LawfulGuestMemory.bytes memory)
          requester.linkerMetadata
        ∧ entry.index = write.relocationIndex ∧ entry.type = write.type
        ∧ BoundValue (GuestMemory.reads memory) graph objectIndex options.symbols
          entry.symbolIndex value thumb
        ∧ write.finalWord = relocatedWord entry.type requester.load.loadBias write.originalWord
          write.placeGuestAddress value thumb := by
  intro requester write hwrite hbears
  rcases call.apply_cases memory graph objectIndex options with
    ⟨failure, hfailure, happly⟩ | ⟨pending, hprepare, -, happly⟩
  · rw [happly] at hok
    rcases hfailure.1 with h | h | h <;> simp [h] at hok
  rw [happly] at hok hwrite
  rw [(applyWrites_ok hok).1] at hwrite
  obtain ⟨record, hrecord, hof⟩ := exists_of_forall₂_right (call.prepare_records hprepare) hwrite
  obtain ⟨value, thumb, hvalue, hword⟩ := hof.final
  rw [hof.type] at hbears
  refine ⟨record.2, value, thumb, ?_, hof.index.symm, hof.type.symm, (hvalue hbears).bound, hword⟩
  rw [hof.table]
  exact hrecord

/-- The two symbol words of `relocatableMemory`. -/
theorem relocation_bindings_combined :
    let call := RelocationCall.combined.apply relocatableMemory relocatableGraph 0 relocationLimits
    (call.1.application.writes.map fun write => symbolBearingType write.type)
        = [false, true, true]
      ∧ ∀ write ∈ call.1.application.writes, symbolBearingType write.type = true →
        ∃ entry value thumb, BoundValue (GuestMemory.reads relocatableMemory) relocatableGraph 0
          relocationLimits.symbols entry value thumb
          ∧ write.finalWord = relocatedWord write.type 0x1000 write.originalWord
            write.placeGuestAddress value thumb := by
  intro call
  refine ⟨by decide +kernel, fun write hwrite hbears => ?_⟩
  obtain ⟨entry, value, thumb, -, -, htype, hbound, hword⟩ := relocation_bindings .combined
    relocatableMemory relocatableGraph 0 relocationLimits (by decide +kernel) write hwrite hbears
  rw [htype] at hword
  exact ⟨entry.symbolIndex, value, thumb, hbound, hword⟩

end LibA32Android
