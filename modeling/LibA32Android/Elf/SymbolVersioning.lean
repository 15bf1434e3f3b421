/-
GNU symbol versions (`elf/elf32_symbol_versioning.h`,
`elf/linking/elf32_symbol_versioning.cpp`).

* `walkVersionDefinitions`, `walkVersionRequirements`: the bounded walks over the
  `VERDEF` and `VERNEED` records;
* `resolveElf32SymbolVersionRequirement`: the version that a requester's symbol
  asks for;
* `matchElf32SymbolVersion`: whether a provider's symbol has that version.

The source writes the `VERDEF` walk out twice, once in each of the two
functions; it is one walk here, with what is done at a named definition as its
parameter.
-/
import LibA32Android.Elf.DependencyLoader

namespace LibA32Android

open Foundations QueryProgram

/-- `Elf32SymbolVersionOptions`. -/
structure Elf32SymbolVersionOptions where
  maxRecords : UInt32
  maxNameBytes : UInt32
  deriving DecidableEq, Repr

/-- `Elf32SymbolVersionError`, without `None`. -/
inductive Elf32SymbolVersionError where
  | invalidOptions
  | invalidMetadata
  | readFailed
  | stringReadFailed
  | invalidRecord
  | recordLimitExceeded
  | versionIndexNotFound
  | dependencyNotFound
  deriving DecidableEq, Repr

/-- The error part of the two result types. -/
structure Elf32SymbolVersionFailure where
  error : Elf32SymbolVersionError
  stringError : Option Elf32LinkerStringError := none
  deriving DecidableEq, Repr

/-- `Elf32SymbolVersionRequirement`. -/
structure Elf32SymbolVersionRequirement where
  elfHash : UInt32
  name : ByteString
  targetObject : Option ℕ
  deriving DecidableEq, Repr

/-- `WalkBudget`. -/
structure WalkBudget where
  used : ℕ := 0
  limit : ℕ
  deriving DecidableEq, Repr

/-- `WalkBudget::take`. -/
def WalkBudget.take (budget : WalkBudget) : Option WalkBudget :=
  if budget.used ≥ budget.limit then none else some { budget with used := budget.used + 1 }

/-! ### Reads -/

/-- Programs that fail with a version error. -/
abbrev VersionRead (α : Type) := GuestRead Elf32SymbolVersionFailure α

/-- Take one record from the budget, or fail. -/
def takeRecord (budget : WalkBudget) : VersionRead WalkBudget :=
  match budget.take with
  | none => .fail { error := .recordLimitExceeded }
  | some budget => return budget

/-- `read_record`, or fail. -/
def readRecord (address : UInt32) (size : ℕ) : VersionRead (List UInt8) := do
  match ← readBytes address size with
  | none => .fail { error := .readFailed }
  | some bytes => return bytes

/-- `add_address`, or an invalid record. -/
def addAddress (base offset : UInt32) : VersionRead UInt32 :=
  match checkedAddGuestAddress base offset.toNat with
  | none => .fail { error := .invalidRecord }
  | some address => return address

/-- A string of the object's string table, or fail. -/
def readVersionString (stringTable : Elf32StringTableMetadata) (offset : UInt32)
    (options : Elf32SymbolVersionOptions) : VersionRead ByteString :=
  (readElf32StringTableEntry stringTable offset
    { maxStringBytes := options.maxNameBytes }).mapError fun e =>
      { error := .stringReadFailed, stringError := some e }

/-- `read_versym`, or fail. -/
def readVersym (table : Elf32VersionSymbolTableMetadata) (symbolIndex : UInt32) :
    VersionRead UInt16 :=
  match checkedAddGuestAddress table.guestAddress (symbolIndex.toNat * 2) with
  | none => .fail { error := .readFailed }
  | some address => do
    let bytes ← readRecord address 2
    return decodeU16Le bytes 0

/-- `kVersionIndexMask`. -/
def versionIndex (raw : UInt16) : UInt16 := raw &&& 0x7fff

/-- `has_any_version_descriptor`. -/
def hasAnyVersionDescriptor (metadata : Elf32LinkerMetadata) : Bool :=
  metadata.versionSymbolTable.isSome || metadata.versionDefinitionTable.isSome
    || metadata.versionRequirementTable.isSome

/-- `valid_walk_options`, with the error of the callers; they also need the
string table. -/
def checkWalk (metadata : Elf32LinkerMetadata) (options : Elf32SymbolVersionOptions) :
    VersionRead Elf32StringTableMetadata := do
  reject (options.maxRecords = 0 ∨ options.maxNameBytes = 0) { error := .invalidOptions }
  match metadata.stringTable with
  | none => .fail { error := .invalidMetadata }
  | some stringTable => return stringTable

/-! ### Version definitions -/

/-- What a named `VERDEF` record says. -/
structure VersionDefinition where
  index : UInt16
  elfHash : UInt32
  name : ByteString

/-- The auxiliary record of a definition that is not the base one. -/
def readVersionDefinition (stringTable : Elf32StringTableMetadata)
    (options : Elf32SymbolVersionOptions) (current : UInt32) (record : List UInt8)
    (budget : WalkBudget) : VersionRead (VersionDefinition × WalkBudget) := do
  let auxCount := decodeU16Le record 6
  let auxOffset := decodeU32Le record 12
  reject (auxCount = 0 ∨ auxOffset = 0) { error := .invalidRecord }
  let budget ← takeRecord budget
  let aux ← addAddress current auxOffset
  let auxRecord ← readRecord aux 8
  let name ← readVersionString stringTable (decodeU32Le auxRecord 0) options
  return ({ index := decodeU16Le record 4, elfHash := decodeU32Le record 8, name }, budget)

/-- The step to the next record, unless this was the last one. -/
def nextRecord (rounds : ℕ) (current nextOffset : UInt32) : VersionRead UInt32 := do
  if rounds = 0 then return current
  else
    reject (nextOffset = 0) { error := .invalidRecord }
    addAddress current nextOffset

/-- The `VERDEF` walk over the records left, with what is done at each named
definition. -/
def walkVersionDefinitions {σ : Type} (stringTable : Elf32StringTableMetadata)
    (options : Elf32SymbolVersionOptions) (define : σ → VersionDefinition → σ) :
    ℕ → UInt32 → WalkBudget → σ → VersionRead σ
  | 0, _, _, s => return s
  | rounds + 1, current, budget, s => do
    let budget ← takeRecord budget
    let record ← readRecord current 20
    reject (decodeU16Le record 0 ≠ 1) { error := .invalidRecord }
    if decodeU16Le record 2 &&& 0x1 = 0 then
      let (definition, budget) ←
        readVersionDefinition stringTable options current record budget
      let current ← nextRecord rounds current (decodeU32Le record 16)
      walkVersionDefinitions stringTable options define rounds current budget
        (define s definition)
    else
      let current ← nextRecord rounds current (decodeU32Le record 16)
      walkVersionDefinitions stringTable options define rounds current budget s

/-! ### Version requirements -/

/-- `dependency_for_soname`; `none` is an invalid graph. -/
def dependencyForSoname (graph : Elf32DependencyGraph) (soname : ByteString) :
    List Elf32DependencyEdge → Option (Option ℕ)
  | [] => some none
  | edge :: edges =>
    if edge.targetObject ≥ graph.objects.length then none
    else if (graph.objects.getD edge.targetObject default).linkerStrings.soname = some soname then
      some (some edge.targetObject)
    else dependencyForSoname graph soname edges

/-- The `VERNAUX` walk over the records left. -/
def walkVersionAux (stringTable : Elf32StringTableMetadata)
    (options : Elf32SymbolVersionOptions) (sourceIndex : UInt16) (targetObject : ℕ) :
    ℕ → UInt32 → WalkBudget → Option Elf32SymbolVersionRequirement →
      VersionRead (Option Elf32SymbolVersionRequirement × WalkBudget)
  | 0, _, budget, found => return (found, budget)
  | rounds + 1, aux, budget, found => do
    let budget ← takeRecord budget
    let auxRecord ← readRecord aux 16
    let name ← readVersionString stringTable (decodeU32Le auxRecord 8) options
    let found :=
      if versionIndex (decodeU16Le auxRecord 6) = sourceIndex then
        some { elfHash := decodeU32Le auxRecord 0, name := name,
               targetObject := some targetObject }
      else found
    let aux ← nextRecord rounds aux (decodeU32Le auxRecord 12)
    walkVersionAux stringTable options sourceIndex targetObject rounds aux budget found

/-- The dependency a `VERNEED` record names. -/
def requiredDependency (graph : Elf32DependencyGraph) (requester : Elf32LoadedDependencyObject)
    (soname : ByteString) : VersionRead ℕ :=
  match dependencyForSoname graph soname requester.dependencies with
  | none => .fail { error := .invalidMetadata }
  | some none => .fail { error := .dependencyNotFound }
  | some (some targetObject) => return targetObject

/-- The `VERNEED` walk over the records left. -/
def walkVersionRequirements (graph : Elf32DependencyGraph)
    (requester : Elf32LoadedDependencyObject) (stringTable : Elf32StringTableMetadata)
    (options : Elf32SymbolVersionOptions) (sourceIndex : UInt16) :
    ℕ → UInt32 → WalkBudget → Option Elf32SymbolVersionRequirement →
      VersionRead (Option Elf32SymbolVersionRequirement × WalkBudget)
  | 0, _, budget, found => return (found, budget)
  | rounds + 1, current, budget, found => do
    let budget ← takeRecord budget
    let record ← readRecord current 16
    let auxCount := decodeU16Le record 2
    let auxOffset := decodeU32Le record 8
    reject (decodeU16Le record 0 ≠ 1 ∨ auxCount = 0 ∨ auxOffset = 0) { error := .invalidRecord }
    let targetName ← readVersionString stringTable (decodeU32Le record 4) options
    let targetObject ← requiredDependency graph requester targetName
    let aux ← addAddress current auxOffset
    let (found, budget) ← walkVersionAux stringTable options sourceIndex targetObject
      auxCount.toNat aux budget found
    let current ← nextRecord rounds current (decodeU32Le record 12)
    walkVersionRequirements graph requester stringTable options sourceIndex rounds current
      budget found

/-! ### The two queries -/

/-- The walks of `resolve_elf32_symbol_version_requirement`: requirements first,
then definitions, which supersede them. -/
def findVersionRequirement (graph : Elf32DependencyGraph) (requesterObject : ℕ)
    (requester : Elf32LoadedDependencyObject) (stringTable : Elf32StringTableMetadata)
    (options : Elf32SymbolVersionOptions) (sourceIndex : UInt16) :
    VersionRead (Option Elf32SymbolVersionRequirement) := do
  let metadata := requester.linkerMetadata
  let budget : WalkBudget := { limit := options.maxRecords.toNat }
  let (found, budget) ← match metadata.versionRequirementTable with
    | none => pure (none, budget)
    | some table =>
      walkVersionRequirements graph requester stringTable options sourceIndex
        table.count.toNat table.guestAddress budget none
  match metadata.versionDefinitionTable with
  | none => return found
  | some table =>
    walkVersionDefinitions stringTable options
      (fun found definition =>
        if versionIndex definition.index = sourceIndex then
          some { elfHash := definition.elfHash, name := definition.name,
                 targetObject := some requesterObject }
        else found)
      table.count.toNat table.guestAddress budget found

/-- `resolve_elf32_symbol_version_requirement`. -/
def resolveElf32SymbolVersionRequirement (graph : Elf32DependencyGraph) (requesterObject : ℕ)
    (symbolIndex : UInt32) (options : Elf32SymbolVersionOptions) :
    VersionRead (Option Elf32SymbolVersionRequirement) := do
  reject (requesterObject ≥ graph.objects.length) { error := .invalidMetadata }
  let requester := graph.objects.getD requesterObject default
  let metadata := requester.linkerMetadata
  reject (metadata.hasSymbolVersioning ∧ !hasAnyVersionDescriptor metadata)
    { error := .invalidMetadata }
  match metadata.versionSymbolTable with
  | none => return none
  | some table =>
    let rawVersion ← readVersym table symbolIndex
    let sourceIndex := versionIndex rawVersion
    if sourceIndex ≤ 1 then return none
    else
      let stringTable ← checkWalk metadata options
      let found ← findVersionRequirement graph requesterObject requester stringTable options
        sourceIndex
      match found with
      | none => .fail { error := .versionIndexNotFound }
      | some requirement => return some requirement

/-- The version index that a provider gives to a requirement: that of its last
definition with this hash and name, or the global one. -/
def expectedVersionIndex (metadata : Elf32LinkerMetadata)
    (requirement : Elf32SymbolVersionRequirement) (options : Elf32SymbolVersionOptions) :
    VersionRead UInt16 :=
  match metadata.versionDefinitionTable with
  | none => return 1
  | some table => do
    let stringTable ← checkWalk metadata options
    walkVersionDefinitions stringTable options
      (fun expectedIndex definition =>
        if definition.elfHash = requirement.elfHash ∧ definition.name = requirement.name then
          versionIndex definition.index
        else expectedIndex)
      table.count.toNat table.guestAddress { limit := options.maxRecords.toNat } 1

/-- `match_elf32_symbol_version`, which reads the metadata of the object only. -/
def matchElf32SymbolVersion (metadata : Elf32LinkerMetadata) (symbolIndex : UInt32)
    (requirement : Option Elf32SymbolVersionRequirement) (options : Elf32SymbolVersionOptions) :
    VersionRead Bool := do
  reject (metadata.hasSymbolVersioning ∧ !hasAnyVersionDescriptor metadata)
    { error := .invalidMetadata }
  match metadata.versionSymbolTable with
  | none => return true
  | some table =>
    let rawVersion ← readVersym table symbolIndex
    match requirement with
    | none => return rawVersion &&& 0x8000 = 0
    | some requirement =>
      let expectedIndex ← expectedVersionIndex metadata requirement options
      return versionIndex rawVersion = expectedIndex

end LibA32Android
