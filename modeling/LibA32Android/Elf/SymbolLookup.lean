/-
Looking up a symbol (`elf/elf32_symbol_lookup.h` and the second part of
`elf/linking/elf32_symbol_lookup.cpp`).

* `sysvHash`, `gnuHash`: the two hash functions;
* `evaluateCandidate`: what one symbol of an object says about a name: a miss, a
  definition or an error;
* `lookupElf32SymbolImpl`: the walk that the hash tables direct;
* `lookupElf32GraphSymbolImpl`: the search through the global scope and the
  breadth-first dependency closure of an object.
-/
import LibA32Android.Elf.SymbolIndex
import LibA32Android.Elf.SymbolVersioning

namespace LibA32Android

open Foundations QueryProgram

/-- `Elf32ResolvedSymbol`. -/
structure Elf32ResolvedSymbol where
  symbolIndex : UInt32
  name : ByteString
  symbol : Elf32Symbol
  guestValue : UInt32
  deriving DecidableEq, Repr

/-- `Elf32SymbolLookupError`, without `None`. -/
inductive Elf32SymbolLookupError where
  | invalidOptions
  | invalidMetadata
  | invalidLookupName
  | unsupportedVersioning
  | versionReadFailed
  | invalidVersionMetadata
  | versionRecordLimitExceeded
  | versionIndexNotFound
  | versionDependencyNotFound
  | hashReadFailed
  | hashIndexOutOfRange
  | invalidHashChain
  | symbolReadFailed
  | stringReadFailed
  | symbolNotFound
  | unsupportedBinding
  | unsupportedType
  | unsupportedVisibility
  | unsupportedSectionIndex
  | valueOverflow
  deriving DecidableEq, Repr

/-- The error part of `Elf32ObjectSymbolLookupResult`. -/
structure Elf32SymbolLookupFailure where
  error : Elf32SymbolLookupError
  stringError : Option Elf32LinkerStringError := none
  deriving DecidableEq, Repr

/-- `version_options`. -/
def versionOptions (options : Elf32SymbolLookupOptions) : Elf32SymbolVersionOptions where
  maxRecords := options.maxVersionRecords
  maxNameBytes := options.maxNameBytes

/-- `version_lookup_error`. -/
def versionLookupError : Elf32SymbolVersionError → Elf32SymbolLookupError
  | .invalidOptions => .invalidOptions
  | .readFailed => .versionReadFailed
  | .stringReadFailed => .stringReadFailed
  | .recordLimitExceeded => .versionRecordLimitExceeded
  | .versionIndexNotFound => .versionIndexNotFound
  | .dependencyNotFound => .versionDependencyNotFound
  | .invalidMetadata => .invalidVersionMetadata
  | .invalidRecord => .invalidVersionMetadata

/-! ### Hashes -/

/-- One round of the SysV hash. -/
def sysvHashStep (hash : UInt32) (byte : UInt8) : UInt32 :=
  let hash := (hash <<< 4) + byte.toUInt32
  let high := hash &&& 0xf0000000
  if high ≠ 0 then (hash ^^^ (high >>> 24)) &&& ~~~high else hash

/-- `sysv_hash`. -/
def sysvHash (name : ByteString) : UInt32 := name.foldl sysvHashStep 0

/-- `gnu_hash`. -/
def gnuHash (name : ByteString) : UInt32 :=
  name.foldl (fun hash byte => hash * 33 + byte.toUInt32) 5381

/-! ### One candidate -/

/-- A symbol that is never a definition for others. -/
def Elf32Symbol.isPrivate (symbol : Elf32Symbol) : Bool :=
  symbol.binding = 0 ∨ symbol.sectionIndex = 0 ∨ symbol.visibility = 1 ∨ symbol.visibility = 2

/-- The checks on kinds of symbols that are not supported, in order; `raw` is the
entry as read a second time. -/
def checkSupported (symbol : Elf32Symbol) (raw : List UInt8) :
    Except Elf32SymbolLookupFailure Unit := do
  refuse (raw.getD 13 0 &&& 0xfc ≠ 0 ∨ (symbol.visibility ≠ 0 ∧ symbol.visibility ≠ 3))
    { error := .unsupportedVisibility }
  refuse (symbol.sectionIndex = 0xfff2 ∨ symbol.sectionIndex = 0xffff
      ∨ (symbol.sectionIndex ≥ 0xff00 ∧ symbol.sectionIndex ≠ 0xfff1))
    { error := .unsupportedSectionIndex }
  refuse (symbol.type ≠ 0 ∧ symbol.type ≠ 1 ∧ symbol.type ≠ 2) { error := .unsupportedType }
  refuse (symbol.type = 10) { error := .unsupportedType }

/-- The guest value of a definition. -/
def symbolGuestValue (loadBias : UInt32) (symbol : Elf32Symbol) :
    Except Elf32SymbolLookupFailure UInt32 :=
  if symbol.sectionIndex ≠ 0xfff1 then
    match checkedAddGuestAddress loadBias symbol.value.toNat with
    | none => .error { error := .valueOverflow }
    | some guestValue => .ok guestValue
  else .ok symbol.value

/-- What is looked for, and where: the captures of `evaluate_candidate`. -/
structure LookupQuery where
  loadBias : UInt32
  metadata : Elf32LinkerMetadata
  stringTable : Elf32StringTableMetadata
  symbolTable : Elf32SymbolTableMetadata
  symbolCount : UInt32
  name : ByteString
  options : Elf32SymbolLookupOptions
  requirement : Option Elf32SymbolVersionRequirement

/-- The part of `evaluate_candidate` behind the name and the private symbols. -/
def LookupQuery.evaluateDefinition (query : LookupQuery) (symbolIndex : UInt32)
    (symbol : Elf32Symbol) (symbolName : ByteString) :
    GuestRead Elf32SymbolLookupFailure (Option Elf32ResolvedSymbol) := do
  reject (symbol.binding ≠ 1 ∧ symbol.binding ≠ 2) { error := .unsupportedBinding }
  match ← readSymbolBytes query.symbolTable symbolIndex with
  | none => .fail { error := .symbolReadFailed }
  | some raw =>
    ofExcept (checkSupported symbol raw)
    let matching ← (matchElf32SymbolVersion query.metadata symbolIndex query.requirement
      (versionOptions query.options)).mapError fun failure =>
        { error := versionLookupError failure.error, stringError := failure.stringError }
    if !matching then return none
    else
      let guestValue ← ofExcept (symbolGuestValue query.loadBias symbol)
      return some { symbolIndex, name := symbolName, symbol, guestValue }

/-- `evaluate_candidate`; `none` is a miss. -/
def LookupQuery.evaluateCandidate (query : LookupQuery) (symbolIndex : UInt32) :
    GuestRead Elf32SymbolLookupFailure (Option Elf32ResolvedSymbol) := do
  reject (symbolIndex = 0 ∨ symbolIndex ≥ query.symbolCount) { error := .hashIndexOutOfRange }
  match ← readSymbol query.symbolTable symbolIndex with
  | none => .fail { error := .symbolReadFailed }
  | some symbol =>
    let symbolName ← (readElf32StringTableEntry query.stringTable symbol.nameOffset
      { maxStringBytes := query.options.maxNameBytes }).mapError fun e =>
        { error := .stringReadFailed, stringError := some e }
    if symbolName ≠ query.name then return none
    else if symbol.isPrivate then return none
    else query.evaluateDefinition symbolIndex symbol symbolName

/-! ### The walks -/

/-- Return the candidate, or go on after a miss. -/
def LookupQuery.orElse (query : LookupQuery) (symbolIndex : UInt32)
    (next : GuestRead Elf32SymbolLookupFailure Elf32ResolvedSymbol) :
    GuestRead Elf32SymbolLookupFailure Elf32ResolvedSymbol := do
  match ← query.evaluateCandidate symbolIndex with
  | some result => return result
  | none => next

/-- The GNU chain walk, over the symbols left. -/
def LookupQuery.walkGnuChain (query : LookupQuery) (index : Elf32GnuHashIndex) (hash : UInt32) :
    ℕ → UInt32 → GuestRead Elf32SymbolLookupFailure Elf32ResolvedSymbol
  | 0, _ => .fail { error := .invalidHashChain }
  | rounds + 1, symbolIndex => do
    let chainHash ← wordOr { error := .hashReadFailed }
      (readIndexedWord index.chainsGuestAddress (symbolIndex - index.symbolOffset))
    let next :=
      if chainHash &&& 1 ≠ 0 then .fail { error := .symbolNotFound }
      else query.walkGnuChain index hash rounds (symbolIndex + 1)
    if chainHash ||| 1 = hash ||| 1 then query.orElse symbolIndex next else next

/-- The GNU lookup. -/
def LookupQuery.lookupGnu (query : LookupQuery) (index : Elf32GnuHashIndex) :
    GuestRead Elf32SymbolLookupFailure Elf32ResolvedSymbol := do
  let hash := gnuHash query.name
  let bloomWord ← wordOr { error := .hashReadFailed }
    (readIndexedWord index.bloomGuestAddress ((hash / 32) &&& (index.bloomWordCount - 1)))
  let firstBit : UInt32 := 1 <<< (hash % 32)
  let secondBit : UInt32 := 1 <<< ((hash >>> index.bloomShift) % 32)
  reject (bloomWord &&& firstBit = 0 ∨ bloomWord &&& secondBit = 0) { error := .symbolNotFound }
  let symbolIndex ← wordOr { error := .hashReadFailed }
    (readIndexedWord index.bucketsGuestAddress (hash % index.bucketCount))
  reject (symbolIndex = 0) { error := .symbolNotFound }
  reject (symbolIndex < index.symbolOffset ∨ symbolIndex ≥ query.symbolCount)
    { error := .hashIndexOutOfRange }
  query.walkGnuChain index hash (query.symbolCount.toNat - symbolIndex.toNat) symbolIndex

/-- The SysV chain walk, over the hops left. -/
def LookupQuery.walkSysvChain (query : LookupQuery) (index : Elf32SysvHashIndex) :
    ℕ → UInt32 → GuestRead Elf32SymbolLookupFailure Elf32ResolvedSymbol
  | 0, symbolIndex =>
    if symbolIndex ≠ 0 then .fail { error := .invalidHashChain }
    else .fail { error := .symbolNotFound }
  | hops + 1, symbolIndex =>
    if symbolIndex = 0 then .fail { error := .symbolNotFound }
    else query.orElse symbolIndex do
      let next ← wordOr { error := .hashReadFailed }
        (readIndexedWord index.chainsGuestAddress symbolIndex)
      reject (next ≥ query.symbolCount ∧ next ≠ 0) { error := .hashIndexOutOfRange }
      query.walkSysvChain index hops next

/-- The SysV lookup. -/
def LookupQuery.lookupSysv (query : LookupQuery) (index : Elf32SysvHashIndex) :
    GuestRead Elf32SymbolLookupFailure Elf32ResolvedSymbol := do
  let symbolIndex ← wordOr { error := .hashReadFailed }
    (readIndexedWord index.bucketsGuestAddress (sysvHash query.name % index.bucketCount))
  reject (symbolIndex ≥ query.symbolCount ∧ symbolIndex ≠ 0) { error := .hashIndexOutOfRange }
  query.walkSysvChain index query.symbolCount.toNat symbolIndex

/-- `lookup_elf32_symbol_impl`. -/
def lookupElf32SymbolImpl (loadBias : UInt32) (metadata : Elf32LinkerMetadata)
    (index : Elf32SymbolIndex) (name : ByteString) (options : Elf32SymbolLookupOptions)
    (requirement : Option Elf32SymbolVersionRequirement) :
    GuestRead Elf32SymbolLookupFailure Elf32ResolvedSymbol := do
  reject (options.maxNameBytes = 0) { error := .invalidOptions }
  reject (name = []) { error := .invalidLookupName }
  match metadata.stringTable, metadata.symbolTable with
  | some stringTable, some symbolTable =>
    reject (index.symbolCount = 0) { error := .invalidMetadata }
    let query : LookupQuery :=
      { loadBias, metadata, stringTable, symbolTable, symbolCount := index.symbolCount, name,
        options, requirement }
    match index.gnuHash, index.sysvHash with
    | some gnu, _ => query.lookupGnu gnu
    | none, some sysv => query.lookupSysv sysv
    | none, none => .fail { error := .invalidMetadata }
  | _, _ => .fail { error := .invalidMetadata }

/-- `lookup_elf32_symbol`: no version is asked for. -/
def lookupElf32Symbol (loadBias : UInt32) (metadata : Elf32LinkerMetadata)
    (index : Elf32SymbolIndex) (name : ByteString) (options : Elf32SymbolLookupOptions) :
    GuestRead Elf32SymbolLookupFailure Elf32ResolvedSymbol :=
  lookupElf32SymbolImpl loadBias metadata index name options none

/-! ### The scope of a graph lookup -/

/-- `Elf32GraphResolvedSymbol`. -/
structure Elf32GraphResolvedSymbol where
  objectIndex : ℕ
  symbol : Elf32ResolvedSymbol
  deriving DecidableEq, Repr

/-- `Elf32GraphSymbolLookupError`, without `None`. -/
inductive Elf32GraphSymbolLookupError where
  | invalidOptions
  | invalidGraphStart
  | invalidGraphEdge
  | invalidGlobalScopeObject
  | scopeLimitExceeded
  | indexBuildFailed
  | objectLookupFailed
  | symbolNotFound
  deriving DecidableEq, Repr

/-- The error part of `Elf32GraphSymbolLookupResult`. -/
structure Elf32GraphSymbolLookupFailure where
  error : Elf32GraphSymbolLookupError
  failingObject : Option ℕ := none
  indexError : Option Elf32SymbolIndexError := none
  lookupError : Option Elf32SymbolLookupError := none
  stringError : Option Elf32LinkerStringError := none
  deriving DecidableEq, Repr

/-- Programs that fail with a graph error. -/
abbrev GraphRead (α : Type) := GuestRead Elf32GraphSymbolLookupFailure α

/-- What all objects of one search are asked for. -/
structure GraphQuery where
  graph : Elf32DependencyGraph
  name : ByteString
  options : Elf32SymbolLookupOptions
  requirement : Option Elf32SymbolVersionRequirement

namespace GraphQuery

/-- `graph.objects[index]`. -/
def object (query : GraphQuery) (index : ℕ) : Elf32LoadedDependencyObject :=
  query.graph.objects.getD index default

/-- The own lookup of one object; `none` goes on to the next one. -/
def lookupObject (query : GraphQuery) (objectIndex : ℕ) :
    GraphRead (Option Elf32GraphResolvedSymbol) := do
  let object := query.object objectIndex
  if object.linkerMetadata.symbolTable.isNone then return none
  else
    let index ← (buildElf32SymbolIndex object.linkerMetadata query.options).mapError fun e =>
      { error := .indexBuildFailed, failingObject := some objectIndex, indexError := some e }
    let lookup ← (lookupElf32SymbolImpl object.load.loadBias object.linkerMetadata index query.name
      query.options query.requirement).attempt
    match lookup with
    | .ok symbol => return some { objectIndex, symbol }
    | .error failure =>
      if failure.error ≠ .symbolNotFound then
        .fail { error := .objectLookupFailed, failingObject := some objectIndex,
                lookupError := some failure.error, stringError := failure.stringError }
      else return none

/-- The locals of the search: `searched`, `expanded` and `scope_objects`. -/
structure SearchState where
  searched : List Bool
  expanded : List Bool
  scopeObjects : ℕ := 0

/-- `search_object`; a definition ends the search. -/
def searchObject (query : GraphQuery) (objectIndex : ℕ)
    (invalidError : Elf32GraphSymbolLookupError) (state : SearchState) :
    GraphRead (Option Elf32GraphResolvedSymbol × SearchState) := do
  reject (objectIndex ≥ query.graph.objects.length)
    { error := invalidError, failingObject := some objectIndex }
  if state.searched.getD objectIndex false then return (none, state)
  else
    reject (state.scopeObjects ≥ query.options.maxScopeObjects.toNat)
      { error := .scopeLimitExceeded, failingObject := some objectIndex }
    let result ← query.lookupObject objectIndex
    return (result, { state with
      searched := state.searched.set objectIndex true
      scopeObjects := state.scopeObjects + 1 })

/-- A search step followed by the rest of the search. -/
def searchThen (query : GraphQuery) (objectIndex : ℕ)
    (invalidError : Elf32GraphSymbolLookupError) (state : SearchState)
    (next : SearchState → GraphRead Elf32GraphResolvedSymbol) :
    GraphRead Elf32GraphResolvedSymbol := do
  match ← query.searchObject objectIndex invalidError state with
  | (some result, _) => return result
  | (none, state) => next state

/-- The loop over the global scope. -/
def searchScope (query : GraphQuery) (next : SearchState → GraphRead Elf32GraphResolvedSymbol) :
    List ℕ → SearchState → GraphRead Elf32GraphResolvedSymbol
  | [], state => next state
  | objectIndex :: objects, state =>
    query.searchThen objectIndex .invalidGlobalScopeObject state
      (query.searchScope next objects)

/-- The edge loop: the targets to be queued, or `none` for an edge out of range. -/
def pushTargets (objectCount : ℕ) (expanded : List Bool) :
    List Elf32DependencyEdge → Option (List ℕ)
  | [] => some []
  | edge :: edges =>
    if edge.targetObject ≥ objectCount then none
    else
      (pushTargets objectCount expanded edges).map fun targets =>
        if expanded.getD edge.targetObject false then targets else edge.targetObject :: targets

/-- The breadth-first loop over the queue `pending`, with the rounds left. -/
def searchClosure (query : GraphQuery) :
    ℕ → List ℕ → SearchState → GraphRead Elf32GraphResolvedSymbol
  | 0, _, _ => .fail { error := .symbolNotFound }
  | _ + 1, [], _ => .fail { error := .symbolNotFound }
  | rounds + 1, objectIndex :: pending, state => do
    query.searchThen objectIndex .invalidGraphEdge state fun state =>
      if state.expanded.getD objectIndex false then query.searchClosure rounds pending state
      else
        let expanded := state.expanded.set objectIndex true
        match pushTargets query.graph.objects.length expanded
            (query.object objectIndex).dependencies with
        | none => .fail { error := .invalidGraphEdge, failingObject := some objectIndex }
        | some targets =>
          query.searchClosure rounds (pending ++ targets) { state with expanded }

/-- The rounds that the breadth-first loop can take: an object is expanded once,
so each edge is queued at most once. -/
def closureRounds (graph : Elf32DependencyGraph) : ℕ :=
  (graph.objects.map (·.dependencies.length)).sum + 2

end GraphQuery

/-- `lookup_elf32_graph_symbol_impl`. -/
def lookupElf32GraphSymbolImpl (graph : Elf32DependencyGraph) (startObject : ℕ)
    (name : ByteString) (options : Elf32SymbolLookupOptions)
    (requirement : Option Elf32SymbolVersionRequirement) (globalScopeObjects : List ℕ)
    (requesterSymbolic : Bool) : GraphRead Elf32GraphResolvedSymbol := do
  reject (options.maxScopeObjects = 0) { error := .invalidOptions }
  reject (startObject ≥ graph.objects.length)
    { error := .invalidGraphStart, failingObject := some startObject }
  globalScopeObjects.forM fun objectIndex =>
    reject (objectIndex ≥ graph.objects.length)
      { error := .invalidGlobalScopeObject, failingObject := some objectIndex }
  let query : GraphQuery := { graph, name, options, requirement }
  let state : GraphQuery.SearchState :=
    { searched := List.replicate graph.objects.length false
      expanded := List.replicate graph.objects.length false }
  let closure := query.searchClosure (GraphQuery.closureRounds graph) [startObject]
  let scope := query.searchScope closure globalScopeObjects
  if requesterSymbolic then query.searchThen startObject .invalidGraphStart state scope
  else scope state

/-- `lookup_elf32_graph_symbol`: no version, no global scope. -/
def lookupElf32GraphSymbol (graph : Elf32DependencyGraph) (startObject : ℕ) (name : ByteString)
    (options : Elf32SymbolLookupOptions) : GraphRead Elf32GraphResolvedSymbol :=
  lookupElf32GraphSymbolImpl graph startObject name options none [] false

/-- `lookup_elf32_graph_symbol_for_reference`. -/
def lookupElf32GraphSymbolForReference (graph : Elf32DependencyGraph) (startObject : ℕ)
    (referenceSymbolIndex : UInt32) (name : ByteString) (options : Elf32SymbolLookupOptions) :
    GraphRead Elf32GraphResolvedSymbol := do
  reject (options.maxScopeObjects = 0) { error := .invalidOptions }
  reject (startObject ≥ graph.objects.length)
    { error := .invalidGraphStart, failingObject := some startObject }
  let requirement ← (resolveElf32SymbolVersionRequirement graph startObject referenceSymbolIndex
    (versionOptions options)).mapError fun failure =>
      { error := .objectLookupFailed, failingObject := some startObject,
        lookupError := some (versionLookupError failure.error),
        stringError := failure.stringError }
  lookupElf32GraphSymbolImpl graph startObject name options requirement
    options.globalScopeObjects
    (graph.objects.getD startObject default).linkerMetadata.symbolic

end LibA32Android
