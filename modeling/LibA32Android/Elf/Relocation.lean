/-
Relocation entries and their references (`elf/elf32_relocation.h` and the first part
of `elf/linking/elf32_relocation.cpp`).

* `buildRelocationPlanForTable`: decode and check one table, with the words at the
  places;
* `resolveRelocationReferencesForTable`: the symbols that the entries refer to.
-/
import LibA32Android.Elf.SymbolLookup

namespace LibA32Android

open Foundations QueryProgram

/-! ### Types -/

def rArmNone : UInt8 := 0
def rArmAbs32 : UInt8 := 2
def rArmRel32 : UInt8 := 3
def rArmGlobDat : UInt8 := 21
def rArmJumpSlot : UInt8 := 22
def rArmRelative : UInt8 := 23

/-- `Elf32RelocationTable`. -/
inductive Elf32RelocationTable where
  | mainRel
  | pltRel
  deriving DecidableEq, Repr

/-- `Elf32RelocationOptions`. -/
structure Elf32RelocationOptions where
  maxRelocations : UInt32
  symbols : Elf32SymbolLookupOptions
  deriving DecidableEq, Repr

/-- `Elf32RelocationEntry`. -/
structure Elf32RelocationEntry where
  index : UInt32
  offset : UInt32
  info : UInt32
  symbolIndex : UInt32
  type : UInt8
  placeGuestAddress : UInt32
  originalWord : Option UInt32 := none
  deriving DecidableEq, Repr

/-- `Elf32RelocationPlan`. -/
structure Elf32RelocationPlan where
  objectIndex : ℕ
  entries : List Elf32RelocationEntry := []
  deriving DecidableEq, Repr

/-- `Elf32RelocationPlanError`, without `None`. -/
inductive Elf32RelocationPlanError where
  | invalidOptions
  | invalidGraphObject
  | tooManyRelocations
  | relocationReadFailed
  | placeOverflow
  | unalignedPlace
  | targetReadFailed
  | duplicateTarget
  | unsupportedRelocationType
  deriving DecidableEq, Repr

/-- `Elf32RelocationReference`. -/
structure Elf32RelocationReference where
  symbolIndex : UInt32
  name : ByteString
  symbol : Elf32Symbol
  definingSymbol : Option Elf32Symbol := none
  symbolValue : UInt32 := 0
  unresolvedWeak : Bool := false
  definingObjectIndex : Option ℕ := none
  definingSymbolIndex : Option UInt32 := none
  deriving DecidableEq, Repr

/-- `Elf32ResolvedRelocationEntry`. -/
structure Elf32ResolvedRelocationEntry where
  relocation : Elf32RelocationEntry
  reference : Option Elf32RelocationReference := none
  deriving DecidableEq, Repr

/-- `Elf32RelocationResolution`. -/
structure Elf32RelocationResolution where
  objectIndex : ℕ
  entries : List Elf32ResolvedRelocationEntry := []
  deriving DecidableEq, Repr

/-- `Elf32RelocationResolveError`, without `None`. -/
inductive Elf32RelocationResolveError where
  | invalidOptions
  | planFailed
  | indexBuildFailed
  | missingReferenceSymbol
  | symbolIndexOutOfRange
  | referenceSymbolReadFailed
  | referenceNameFailed
  | unsupportedVersioning
  | unsupportedReferenceBinding
  | unsupportedReferenceVisibility
  | unsupportedReferenceType
  | unsupportedReferenceSection
  | symbolLookupFailed
  | unresolvedStrongSymbol
  deriving DecidableEq, Repr

/-- The error part of `Elf32RelocationResolutionResult`. -/
structure Elf32RelocationResolutionFailure where
  error : Elf32RelocationResolveError
  planError : Option Elf32RelocationPlanError := none
  indexError : Option Elf32SymbolIndexError := none
  symbolReadError : Option Elf32SymbolReadError := none
  stringError : Option Elf32LinkerStringError := none
  graphError : Option Elf32GraphSymbolLookupError := none
  lookupError : Option Elf32SymbolLookupError := none
  failingObject : Option ℕ := none
  failingRelocation : Option UInt32 := none
  objectIndex : ℕ
  deriving DecidableEq, Repr

/-- `supported_type`. -/
def supportedType (type : UInt8) : Bool :=
  type = rArmNone ∨ type = rArmAbs32 ∨ type = rArmRel32 ∨ type = rArmGlobDat
    ∨ type = rArmRelative

/-- `symbol_bearing_type`. -/
def symbolBearingType (type : UInt8) : Bool :=
  type = rArmAbs32 ∨ type = rArmRel32 ∨ type = rArmGlobDat ∨ type = rArmJumpSlot

/-- `supported_type_for_table`. -/
def supportedTypeForTable (type : UInt8) : Elf32RelocationTable → Bool
  | .pltRel => type = rArmJumpSlot
  | .mainRel => supportedType type

/-- `valid_symbol_options`. -/
def validSymbolOptions (options : Elf32SymbolLookupOptions) : Bool :=
  options.maxSymbols ≠ 0 ∧ options.maxHashBuckets ≠ 0 ∧ options.maxGnuBloomWords ≠ 0
    ∧ options.maxScopeObjects ≠ 0 ∧ options.maxNameBytes ≠ 0

/-! ### The plan -/

/-- The fields of a table entry, before its place is known. -/
def decodeRelocation (i : ℕ) (bytes : List UInt8) : Elf32RelocationEntry where
  index := UInt32.ofNat i
  offset := decodeU32Le bytes 0
  info := decodeU32Le bytes 4
  symbolIndex := decodeU32Le bytes 4 >>> 8
  type := (decodeU32Le bytes 4 &&& 0xff).toUInt8
  placeGuestAddress := 0

/-- The bytes of a table entry, or fail. -/
def readRelocationBytes (table : Elf32RelTableMetadata) (i : ℕ) :
    GuestRead Elf32RelocationPlanError (List UInt8) :=
  match checkedAddGuestAddress table.guestAddress (i * 8) with
  | none => .fail .relocationReadFailed
  | some entryAddress => do
    match ← readBytes entryAddress 8 with
    | none => .fail .relocationReadFailed
    | some bytes => return bytes

/-- One round of the plan loop up to the duplicate check. -/
def planEntry (loadBias : UInt32) (table : Elf32RelTableMetadata) (kind : Elf32RelocationTable)
    (i : ℕ) : GuestRead Elf32RelocationPlanError Elf32RelocationEntry := do
  let bytes ← readRelocationBytes table i
  let entry := decodeRelocation i bytes
  reject (!supportedTypeForTable entry.type kind) .unsupportedRelocationType
  match checkedAddGuestAddress loadBias entry.offset.toNat with
  | none => .fail .placeOverflow
  | some place =>
    if entry.type = rArmNone then return { entry with placeGuestAddress := place }
    else
      reject (place &&& 0x3 ≠ 0) .unalignedPlace
      let original ← wordOr .targetReadFailed (readU32 place)
      return { entry with placeGuestAddress := place, originalWord := some original }

/-- The plan loop over the entries left, with the `write_targets` so far. -/
def planEntries (loadBias : UInt32) (table : Elf32RelTableMetadata)
    (kind : Elf32RelocationTable) :
    ℕ → ℕ → List UInt32 → GuestRead Elf32RelocationPlanError (List Elf32RelocationEntry)
  | 0, _, _ => return []
  | left + 1, i, writeTargets => do
    let entry ← planEntry loadBias table kind i
    if entry.type = rArmNone then
      let entries ← planEntries loadBias table kind left (i + 1) writeTargets
      return entry :: entries
    else
      reject (entry.placeGuestAddress ∈ writeTargets) .duplicateTarget
      let entries ← planEntries loadBias table kind left (i + 1)
        (entry.placeGuestAddress :: writeTargets)
      return entry :: entries

/-- The table that an object has for a kind. -/
def selectedTable (metadata : Elf32LinkerMetadata) :
    Elf32RelocationTable → Option Elf32RelTableMetadata
  | .pltRel => metadata.pltRelTable
  | .mainRel => metadata.relTable

/-- `build_relocation_plan_for_table`. -/
def buildRelocationPlanForTable (graph : Elf32DependencyGraph) (objectIndex : ℕ)
    (options : Elf32RelocationOptions) (kind : Elf32RelocationTable) :
    GuestRead Elf32RelocationPlanError Elf32RelocationPlan := do
  reject (objectIndex ≥ graph.objects.length) .invalidGraphObject
  let object := graph.objects.getD objectIndex default
  match selectedTable object.linkerMetadata kind with
  | none => return { objectIndex }
  | some table =>
    reject (options.maxRelocations = 0) .invalidOptions
    reject (table.entrySize ≠ 8 ∨ table.size % 8 ≠ 0) .relocationReadFailed
    let count := table.size / 8
    reject (count > options.maxRelocations) .tooManyRelocations
    let entries ← planEntries object.load.loadBias table kind count.toNat 0 []
    return { objectIndex, entries }

/-! ### References -/

/-- The checks on the symbol of a reference, in order. -/
def checkReferenceSymbol (symbol : Elf32Symbol) : Except Elf32RelocationResolveError Unit := do
  refuse (symbol.binding ≠ 1 ∧ symbol.binding ≠ 2) .unsupportedReferenceBinding
  refuse (symbol.rawOther &&& 0xfc ≠ 0 ∨ symbol.visibility ≠ 0) .unsupportedReferenceVisibility
  refuse (symbol.type ≠ 0 ∧ symbol.type ≠ 1 ∧ symbol.type ≠ 2) .unsupportedReferenceType
  refuse (symbol.sectionIndex = 0xfff2 ∨ symbol.sectionIndex = 0xffff
      ∨ (symbol.sectionIndex ≥ 0xff00 ∧ symbol.sectionIndex ≠ 0xfff1))
    .unsupportedReferenceSection

/-- The reference after the graph lookup; a miss is allowed for a weak symbol. -/
def resolvedReference (objectIndex : ℕ) (entry : Elf32RelocationEntry) (symbol : Elf32Symbol)
    (name : ByteString) :
    Except Elf32GraphSymbolLookupFailure Elf32GraphResolvedSymbol →
      Except Elf32RelocationResolutionFailure Elf32RelocationReference
  | .ok definition =>
    .ok { symbolIndex := entry.symbolIndex, name, symbol
          definingSymbol := some definition.symbol.symbol
          symbolValue := definition.symbol.guestValue
          definingObjectIndex := some definition.objectIndex
          definingSymbolIndex := some definition.symbol.symbolIndex }
  | .error failure =>
    if failure.error = .symbolNotFound then
      if symbol.binding ≠ 2 then
        .error { error := .unresolvedStrongSymbol, objectIndex,
                 failingRelocation := some entry.index }
      else
        .ok { symbolIndex := entry.symbolIndex, name, symbol, symbolValue := 0,
              unresolvedWeak := true }
    else
      .error { error := .symbolLookupFailed, objectIndex, failingRelocation := some entry.index
               graphError := some failure.error, indexError := failure.indexError
               lookupError := failure.lookupError, stringError := failure.stringError
               failingObject := failure.failingObject }

/-- The name of the symbol of a reference. -/
def readReferenceName (objectIndex : ℕ) (metadata : Elf32LinkerMetadata)
    (options : Elf32SymbolLookupOptions) (entry : Elf32RelocationEntry) (symbol : Elf32Symbol) :
    GuestRead Elf32RelocationResolutionFailure ByteString :=
  let failure : Elf32RelocationResolutionFailure :=
    { error := .referenceNameFailed, objectIndex, failingRelocation := some entry.index }
  match metadata.stringTable with
  | none => .fail { failure with stringError := some .missingStringTable }
  | some stringTable => do
    let name ← (readElf32StringTableEntry stringTable symbol.nameOffset
      { maxStringBytes := options.maxNameBytes }).mapError fun e =>
        { failure with stringError := some e }
    reject (name = []) failure
    return name

/-- The reference of a symbol-bearing entry. -/
def resolveReference (graph : Elf32DependencyGraph) (objectIndex : ℕ)
    (options : Elf32RelocationOptions) (index : Elf32SymbolIndex) (entry : Elf32RelocationEntry) :
    GuestRead Elf32RelocationResolutionFailure Elf32RelocationReference := do
  let metadata := (graph.objects.getD objectIndex default).linkerMetadata
  reject (entry.symbolIndex = 0)
    { error := .missingReferenceSymbol, objectIndex, failingRelocation := some entry.index }
  reject (entry.symbolIndex ≥ index.symbolCount)
    { error := .symbolIndexOutOfRange, objectIndex, failingRelocation := some entry.index }
  let symbol ← (readElf32SymbolEntry metadata index entry.symbolIndex).mapError fun e =>
    { error := .referenceSymbolReadFailed, objectIndex, failingRelocation := some entry.index
      symbolReadError := some e }
  let name ← readReferenceName objectIndex metadata options.symbols entry symbol
  ofExcept ((checkReferenceSymbol symbol).mapError fun error =>
    { error, objectIndex, failingRelocation := some entry.index })
  let lookup ← (lookupElf32GraphSymbolForReference graph objectIndex entry.symbolIndex name
    options.symbols).attempt
  ofExcept (resolvedReference objectIndex entry symbol name lookup)

/-- One round of the resolution loop. -/
def resolveEntry (graph : Elf32DependencyGraph) (objectIndex : ℕ)
    (options : Elf32RelocationOptions) (index : Elf32SymbolIndex) (entry : Elf32RelocationEntry) :
    GuestRead Elf32RelocationResolutionFailure Elf32ResolvedRelocationEntry := do
  if symbolBearingType entry.type then
    let reference ← resolveReference graph objectIndex options index entry
    return { relocation := entry, reference := some reference }
  else return { relocation := entry }

/-- `resolve_relocation_references_for_table`. -/
def resolveRelocationReferencesForTable (graph : Elf32DependencyGraph) (objectIndex : ℕ)
    (options : Elf32RelocationOptions) (kind : Elf32RelocationTable) :
    GuestRead Elf32RelocationResolutionFailure Elf32RelocationResolution := do
  let plan ← (buildRelocationPlanForTable graph objectIndex options kind).mapError fun e =>
    { error := .planFailed, planError := some e, objectIndex }
  if plan.entries.any fun entry => symbolBearingType entry.type then
    reject (objectIndex ≥ graph.objects.length ∨ !validSymbolOptions options.symbols)
      { error := .invalidOptions, objectIndex }
    let index ← (buildElf32SymbolIndex (graph.objects.getD objectIndex default).linkerMetadata
      options.symbols).mapError fun e =>
        { error := .indexBuildFailed, indexError := some e, objectIndex }
    let entries ← collect (resolveEntry graph objectIndex options index) plan.entries
    return { objectIndex, entries }
  else
    return { objectIndex, entries := plan.entries.map fun entry => { relocation := entry } }

end LibA32Android
