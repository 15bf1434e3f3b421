/-
The dynamic array and the linker metadata (`elf/elf32_dynamic.h`,
`elf/elf32_linker_metadata.h`, `elf/metadata/elf32_dynamic.cpp`,
`elf/metadata/elf32_linker_metadata.cpp`).

* `parseElf32Dynamic`: the entries of `PT_DYNAMIC` up to the first `DT_NULL`;
* `collectElf32LinkerMetadata`: the supported tags, each at most once but for
  `DT_NEEDED`, as raw values;
* `buildElf32LinkerMetadata`: the same with addresses rebased and the declared
  ranges read.

The local optionals of the collection are one function from their names
(`SingletonField`) to values.
-/
import LibA32Android.Elf.Bytes
import LibA32Android.Elf.Loader

namespace LibA32Android

open Foundations QueryProgram

/-! ### The dynamic array -/

/-- `Elf32DynamicError`, without `None`. -/
inductive Elf32DynamicError where
  | invalidRange
  | truncatedEntry
  | readFailed
  | unterminated
  deriving DecidableEq, Repr

/-- `Elf32DynamicEntry`. -/
structure Elf32DynamicEntry where
  tag : Int32
  value : UInt32
  deriving DecidableEq, Repr

/-- The entry in eight bytes. -/
def decodeDynamicEntry (bytes : List UInt8) : Elf32DynamicEntry where
  tag := (decodeU32Le bytes 0).toInt32
  value := decodeU32Le bytes 4

/-- The entry loop, with the number of entries left and the current offset. -/
def parseDynamicEntries (segment : Elf32DynamicSegment) :
    ℕ → ℕ → GuestRead Elf32DynamicError (List Elf32DynamicEntry)
  | 0, _ => .fail .unterminated
  | left + 1, offset => do
    match ← readBytes (UInt32.ofNat (segment.guestAddress.toNat + offset)) 8 with
    | none => .fail .readFailed
    | some bytes =>
      let entry := decodeDynamicEntry bytes
      if entry.tag = 0 then return [entry]
      else
        let entries ← parseDynamicEntries segment left (offset + 8)
        return entry :: entries

/-- `parse_elf32_dynamic`. -/
def parseElf32Dynamic (segment : Elf32DynamicSegment) :
    GuestRead Elf32DynamicError (List Elf32DynamicEntry) := do
  reject (segment.fileSize > segment.memorySize
    ∨ segment.guestAddress.toNat + segment.memorySize.toNat > 2 ^ 32) .invalidRange
  reject (segment.fileSize % 8 ≠ 0) .truncatedEntry
  parseDynamicEntries segment (segment.fileSize.toNat / 8) 0

/-! ### Collection -/

/-- `Elf32LinkerMetadataError`, without `None`. -/
inductive Elf32LinkerMetadataError where
  | duplicateSingleton
  | incompleteStringTable
  | incompleteSymbolTable
  | incompleteRelTable
  | incompletePltRelTable
  | incompleteVersionDefinitionTable
  | incompleteVersionRequirementTable
  | addressOverflow
  | rangeOverflow
  | readFailed
  | invalidSymbolEntrySize
  | invalidRelEntrySize
  | invalidRelSize
  | invalidPltRelType
  | invalidPltRelSize
  | stringOffsetOutOfRange
  | incompleteInitArray
  | incompleteFiniArray
  | invalidFunctionArraySize
  deriving DecidableEq, Repr

/-- The optionals that a dynamic entry may set once. -/
inductive SingletonField where
  | strtab
  | strsz
  | symtab
  | syment
  | sysvHash
  | gnuHash
  | rel
  | relsz
  | relent
  | jmprel
  | pltrelsz
  | pltrel
  | initArray
  | initArraySize
  | finiArray
  | finiArraySize
  | versym
  | verdef
  | verdefnum
  | verneed
  | verneednum
  | soname
  | flags
  | flags1
  deriving DecidableEq, Repr

/-- The optional that a tag sets. -/
def singletonField (tag : Int32) : Option SingletonField :=
  if tag = 2 then some .pltrelsz
  else if tag = 4 then some .sysvHash
  else if tag = 5 then some .strtab
  else if tag = 6 then some .symtab
  else if tag = 10 then some .strsz
  else if tag = 11 then some .syment
  else if tag = 14 then some .soname
  else if tag = 17 then some .rel
  else if tag = 18 then some .relsz
  else if tag = 19 then some .relent
  else if tag = 20 then some .pltrel
  else if tag = 23 then some .jmprel
  else if tag = 25 then some .initArray
  else if tag = 26 then some .finiArray
  else if tag = 27 then some .initArraySize
  else if tag = 28 then some .finiArraySize
  else if tag = 30 then some .flags
  else if tag = 0x6ffffef5 then some .gnuHash
  else if tag = 0x6ffffffb then some .flags1
  else if tag = 0x6ffffff0 then some .versym
  else if tag = 0x6ffffffc then some .verdef
  else if tag = 0x6ffffffd then some .verdefnum
  else if tag = 0x6ffffffe then some .verneed
  else if tag = 0x6fffffff then some .verneednum
  else none

/-- The locals of the collection loop. -/
structure Elf32Collection where
  fields : SingletonField → Option UInt32 := fun _ => none
  neededOffsets : List UInt32 := []
  hasDtSymbolic : Bool := false

/-- One round of the collection loop: `DT_NEEDED` accumulates, `DT_SYMBOLIC` and
the singletons may come once, other tags are ignored. -/
def collectEntry (collection : Elf32Collection) (entry : Elf32DynamicEntry) :
    Except Elf32LinkerMetadataError Elf32Collection :=
  if entry.tag = 1 then
    .ok { collection with neededOffsets := collection.neededOffsets ++ [entry.value] }
  else if entry.tag = 16 then do
    refuse collection.hasDtSymbolic .duplicateSingleton
    return { collection with hasDtSymbolic := true }
  else
    match singletonField entry.tag with
    | none => .ok collection
    | some field => do
      refuse (collection.fields field).isSome .duplicateSingleton
      return { collection with
        fields := Function.update collection.fields field (some entry.value) }

/-- The collection loop: it stops at the first `DT_NULL`. -/
def collectEntries (entries : List Elf32DynamicEntry) :
    Except Elf32LinkerMetadataError Elf32Collection :=
  (entries.takeWhile fun entry => entry.tag ≠ 0).foldlM collectEntry {}

/-- `Elf32CollectedStringTableMetadata`. -/
structure Elf32CollectedStringTableMetadata where
  addressValue : UInt32
  size : UInt32
  deriving DecidableEq, Repr

/-- `Elf32CollectedSymbolTableMetadata`. -/
structure Elf32CollectedSymbolTableMetadata where
  addressValue : UInt32
  entrySize : UInt32
  deriving DecidableEq, Repr

/-- `Elf32CollectedHashTableMetadata`. -/
structure Elf32CollectedHashTableMetadata where
  addressValue : UInt32
  deriving DecidableEq, Repr

/-- `Elf32CollectedRelTableMetadata`. -/
structure Elf32CollectedRelTableMetadata where
  addressValue : UInt32
  size : UInt32
  entrySize : UInt32
  deriving DecidableEq, Repr

/-- `Elf32CollectedVersionTableMetadata`. -/
structure Elf32CollectedVersionTableMetadata where
  addressValue : UInt32
  count : UInt32
  deriving DecidableEq, Repr

/-- `Elf32CollectedFunctionArrayMetadata`. -/
structure Elf32CollectedFunctionArrayMetadata where
  addressValue : UInt32
  size : UInt32
  deriving DecidableEq, Repr

/-- `Elf32CollectedLinkerMetadata`. -/
structure Elf32CollectedLinkerMetadata where
  stringTable : Option Elf32CollectedStringTableMetadata := none
  symbolTable : Option Elf32CollectedSymbolTableMetadata := none
  sysvHashTable : Option Elf32CollectedHashTableMetadata := none
  gnuHashTable : Option Elf32CollectedHashTableMetadata := none
  relTable : Option Elf32CollectedRelTableMetadata := none
  pltRelTable : Option Elf32CollectedRelTableMetadata := none
  initArray : Option Elf32CollectedFunctionArrayMetadata := none
  finiArray : Option Elf32CollectedFunctionArrayMetadata := none
  versionSymbolAddressValue : Option UInt32 := none
  versionDefinitionTable : Option Elf32CollectedVersionTableMetadata := none
  versionRequirementTable : Option Elf32CollectedVersionTableMetadata := none
  sonameOffset : Option UInt32 := none
  neededOffsets : List UInt32 := []
  flags1 : Option UInt32 := none
  global : Bool := false
  symbolic : Bool := false
  hasSymbolVersioning : Bool := false
  deriving DecidableEq, Repr

namespace Elf32Collection

variable (c : Elf32Collection)

/-- A tag of the pair was seen without the other. -/
def pairIncomplete (first second : SingletonField) : Bool :=
  (c.fields first).isSome != (c.fields second).isSome

/-- Some but not all tags of the triple were seen. -/
def tripleIncomplete (first second third : SingletonField) : Bool :=
  let count := (c.fields first).isSome.toNat + (c.fields second).isSome.toNat
    + (c.fields third).isSome.toNat
  count != 0 && count != 3

/-- A function array size that is not a multiple of the word size. -/
def badArraySize (field : SingletonField) : Bool :=
  match c.fields field with
  | none => false
  | some size => size % 4 != 0

/-- A `DT_PLTREL` other than `DT_REL`. -/
def badPltRelType : Bool :=
  match c.fields .pltrel with
  | none => false
  | some type => type != 17

/-- The checks after the loop, in the order of the source. -/
def check : Except Elf32LinkerMetadataError Unit := do
  refuse (c.pairIncomplete .strtab .strsz
      ∨ (((c.fields .soname).isSome ∨ c.neededOffsets ≠ []) ∧ (c.fields .strtab).isNone))
    .incompleteStringTable
  refuse (c.pairIncomplete .symtab .syment) .incompleteSymbolTable
  refuse (c.tripleIncomplete .rel .relsz .relent) .incompleteRelTable
  refuse (c.tripleIncomplete .jmprel .pltrelsz .pltrel) .incompletePltRelTable
  refuse c.badPltRelType .invalidPltRelType
  refuse (c.pairIncomplete .initArray .initArraySize) .incompleteInitArray
  refuse (c.pairIncomplete .finiArray .finiArraySize) .incompleteFiniArray
  refuse (c.badArraySize .initArraySize ∨ c.badArraySize .finiArraySize)
    .invalidFunctionArraySize
  refuse (c.pairIncomplete .verdef .verdefnum) .incompleteVersionDefinitionTable
  refuse (c.pairIncomplete .verneed .verneednum) .incompleteVersionRequirementTable
  refuse ((c.fields .versym).isSome ∧ (c.fields .symtab).isNone) .incompleteSymbolTable
  refuse (((c.fields .verdef).isSome ∨ (c.fields .verneed).isSome) ∧ (c.fields .strtab).isNone)
    .incompleteStringTable

/-- A bit of a flags word that was seen. -/
def hasFlag (field : SingletonField) (bit : UInt32) : Bool :=
  match c.fields field with
  | none => false
  | some flags => flags &&& bit != 0

/-- The metadata of a collection whose checks passed. -/
def metadata : Elf32CollectedLinkerMetadata where
  stringTable := (c.fields .strtab).map fun address =>
    { addressValue := address, size := (c.fields .strsz).getD 0 }
  symbolTable := (c.fields .symtab).map fun address =>
    { addressValue := address, entrySize := (c.fields .syment).getD 0 }
  sysvHashTable := (c.fields .sysvHash).map fun address => { addressValue := address }
  gnuHashTable := (c.fields .gnuHash).map fun address => { addressValue := address }
  relTable := (c.fields .rel).map fun address =>
    { addressValue := address
      size := (c.fields .relsz).getD 0
      entrySize := (c.fields .relent).getD 0 }
  pltRelTable := (c.fields .jmprel).map fun address =>
    { addressValue := address, size := (c.fields .pltrelsz).getD 0, entrySize := 8 }
  initArray := (c.fields .initArray).map fun address =>
    { addressValue := address, size := (c.fields .initArraySize).getD 0 }
  finiArray := (c.fields .finiArray).map fun address =>
    { addressValue := address, size := (c.fields .finiArraySize).getD 0 }
  versionSymbolAddressValue := c.fields .versym
  versionDefinitionTable := (c.fields .verdef).map fun address =>
    { addressValue := address, count := (c.fields .verdefnum).getD 0 }
  versionRequirementTable := (c.fields .verneed).map fun address =>
    { addressValue := address, count := (c.fields .verneednum).getD 0 }
  sonameOffset := c.fields .soname
  neededOffsets := c.neededOffsets
  flags1 := c.fields .flags1
  global := c.hasFlag .flags1 0x2
  symbolic := c.hasDtSymbolic || c.hasFlag .flags 0x2
  hasSymbolVersioning :=
    (c.fields .versym).isSome || (c.fields .verdef).isSome || (c.fields .verneed).isSome

end Elf32Collection

/-- `collect_elf32_linker_metadata`. -/
def collectElf32LinkerMetadata (entries : List Elf32DynamicEntry) :
    Except Elf32LinkerMetadataError Elf32CollectedLinkerMetadata := do
  let collection ← collectEntries entries
  collection.check
  return collection.metadata

/-! ### Validation -/

/-- `Elf32StringTableMetadata`. -/
structure Elf32StringTableMetadata where
  guestAddress : UInt32
  size : UInt32
  deriving DecidableEq, Repr

/-- `Elf32SymbolTableMetadata`. -/
structure Elf32SymbolTableMetadata where
  guestAddress : UInt32
  entrySize : UInt32
  deriving DecidableEq, Repr

/-- `Elf32HashTableMetadata`. -/
structure Elf32HashTableMetadata where
  guestAddress : UInt32
  deriving DecidableEq, Repr

/-- `Elf32RelTableMetadata`. -/
structure Elf32RelTableMetadata where
  guestAddress : UInt32
  size : UInt32
  entrySize : UInt32
  deriving DecidableEq, Repr

/-- `Elf32FunctionArrayMetadata`. -/
structure Elf32FunctionArrayMetadata where
  guestAddress : UInt32
  size : UInt32
  deriving DecidableEq, Repr

/-- `Elf32VersionSymbolTableMetadata`. -/
structure Elf32VersionSymbolTableMetadata where
  guestAddress : UInt32
  deriving DecidableEq, Repr

/-- `Elf32VersionTableMetadata`. -/
structure Elf32VersionTableMetadata where
  guestAddress : UInt32
  count : UInt32
  deriving DecidableEq, Repr

/-- `Elf32LinkerMetadata`. -/
structure Elf32LinkerMetadata where
  stringTable : Option Elf32StringTableMetadata := none
  symbolTable : Option Elf32SymbolTableMetadata := none
  sysvHashTable : Option Elf32HashTableMetadata := none
  gnuHashTable : Option Elf32HashTableMetadata := none
  relTable : Option Elf32RelTableMetadata := none
  pltRelTable : Option Elf32RelTableMetadata := none
  initArray : Option Elf32FunctionArrayMetadata := none
  finiArray : Option Elf32FunctionArrayMetadata := none
  versionSymbolTable : Option Elf32VersionSymbolTableMetadata := none
  versionDefinitionTable : Option Elf32VersionTableMetadata := none
  versionRequirementTable : Option Elf32VersionTableMetadata := none
  sonameOffset : Option UInt32 := none
  neededOffsets : List UInt32 := []
  flags1 : Option UInt32 := none
  global : Bool := false
  symbolic : Bool := false
  hasSymbolVersioning : Bool := false
  deriving DecidableEq, Repr

/-- The chunk loop of `readable_range`; each round reads at least one byte. -/
def readableRangeFrom {ε : Type} (guestAddress size : UInt32) : ℕ → ℕ → GuestRead ε Bool
  | 0, _ => return true
  | rounds + 1, offset => do
    if offset < size.toNat then
      let chunk := min 256 (size.toNat - offset)
      let current := guestAddress.toNat + offset
      if current > 0xffffffff then return false
      else
        match ← readBytes (UInt32.ofNat current) chunk with
        | none => return false
        | some _ => readableRangeFrom guestAddress size rounds (offset + chunk)
    else return true

/-- `readable_range`. -/
def readableRange {ε : Type} (guestAddress size : UInt32) : GuestRead ε Bool :=
  if size = 0 then return true else readableRangeFrom guestAddress size size.toNat 0

/-- The steps that every table descriptor goes through: rebase the address, then
check that the declared range fits and is readable. -/
def describeRange (loadBias addressValue size : UInt32) :
    GuestRead Elf32LinkerMetadataError UInt32 :=
  match checkedAddGuestAddress addressValue loadBias.toNat with
  | none => .fail .addressOverflow
  | some guestAddress => do
    reject (guestAddress.toNat + size.toNat > 2 ^ 32) .rangeOverflow
    let readable ← readableRange guestAddress size
    reject (!readable) .readFailed
    return guestAddress

/-- A descriptor that is only built when its tag is present. -/
def describeOptional {α β : Type} (collected : Option α)
    (describe : α → GuestRead Elf32LinkerMetadataError β) :
    GuestRead Elf32LinkerMetadataError (Option β) :=
  match collected with
  | none => return none
  | some table => do
    let described ← describe table
    return some described

/-- The string table; all string offsets must lie in it. -/
def describeStringTable (loadBias : UInt32) (collected : Elf32CollectedLinkerMetadata)
    (table : Elf32CollectedStringTableMetadata) :
    GuestRead Elf32LinkerMetadataError Elf32StringTableMetadata := do
  reject (∃ offset ∈ collected.sonameOffset, offset ≥ table.size) .stringOffsetOutOfRange
  reject (∃ offset ∈ collected.neededOffsets, offset ≥ table.size) .stringOffsetOutOfRange
  let guestAddress ← describeRange loadBias table.addressValue table.size
  return { guestAddress, size := table.size }

/-- The symbol table: only its first entry is read here. -/
def describeSymbolTable (loadBias : UInt32) (table : Elf32CollectedSymbolTableMetadata) :
    GuestRead Elf32LinkerMetadataError Elf32SymbolTableMetadata := do
  reject (table.entrySize ≠ 16) .invalidSymbolEntrySize
  let guestAddress ← describeRange loadBias table.addressValue 16
  return { guestAddress, entrySize := table.entrySize }

/-- `build_hash_descriptor`. -/
def describeHashTable (loadBias headerSize : UInt32) (table : Elf32CollectedHashTableMetadata) :
    GuestRead Elf32LinkerMetadataError Elf32HashTableMetadata := do
  let guestAddress ← describeRange loadBias table.addressValue headerSize
  return { guestAddress }

/-- The version symbol table: only its first entry is read here. -/
def describeVersionSymbolTable (loadBias addressValue : UInt32) :
    GuestRead Elf32LinkerMetadataError Elf32VersionSymbolTableMetadata := do
  let guestAddress ← describeRange loadBias addressValue 2
  return { guestAddress }

/-- `build_version_table`: an empty table is only rebased. -/
def describeVersionTable (loadBias fixedRecordSize : UInt32)
    (table : Elf32CollectedVersionTableMetadata) :
    GuestRead Elf32LinkerMetadataError Elf32VersionTableMetadata :=
  match checkedAddGuestAddress table.addressValue loadBias.toNat with
  | none => .fail .addressOverflow
  | some guestAddress => do
    if table.count ≠ 0 then
      let guestAddress ← describeRange loadBias table.addressValue fixedRecordSize
      return { guestAddress, count := table.count }
    else return { guestAddress, count := table.count }

/-- `build_function_array`. -/
def describeFunctionArray (loadBias : UInt32) (table : Elf32CollectedFunctionArrayMetadata) :
    GuestRead Elf32LinkerMetadataError Elf32FunctionArrayMetadata := do
  let guestAddress ← describeRange loadBias table.addressValue table.size
  return { guestAddress, size := table.size }

/-- The relocation table. -/
def describeRelTable (loadBias : UInt32) (table : Elf32CollectedRelTableMetadata) :
    GuestRead Elf32LinkerMetadataError Elf32RelTableMetadata := do
  reject (table.entrySize ≠ 8) .invalidRelEntrySize
  reject (table.size % table.entrySize ≠ 0) .invalidRelSize
  let guestAddress ← describeRange loadBias table.addressValue table.size
  return { guestAddress, size := table.size, entrySize := table.entrySize }

/-- The PLT relocation table, whose entry size is not declared. -/
def describePltRelTable (loadBias : UInt32) (table : Elf32CollectedRelTableMetadata) :
    GuestRead Elf32LinkerMetadataError Elf32RelTableMetadata := do
  reject (table.size % 8 ≠ 0) .invalidPltRelSize
  let guestAddress ← describeRange loadBias table.addressValue table.size
  return { guestAddress, size := table.size, entrySize := 8 }

/-- `build_elf32_linker_metadata`. -/
def buildElf32LinkerMetadata (loadBias : UInt32) (entries : List Elf32DynamicEntry) :
    GuestRead Elf32LinkerMetadataError Elf32LinkerMetadata := do
  let collected ← ofExcept (collectElf32LinkerMetadata entries)
  let stringTable ← describeOptional collected.stringTable
    (describeStringTable loadBias collected)
  let symbolTable ← describeOptional collected.symbolTable (describeSymbolTable loadBias)
  let sysvHashTable ← describeOptional collected.sysvHashTable (describeHashTable loadBias 8)
  let gnuHashTable ← describeOptional collected.gnuHashTable (describeHashTable loadBias 16)
  let versionSymbolTable ← describeOptional collected.versionSymbolAddressValue
    (describeVersionSymbolTable loadBias)
  let versionDefinitionTable ← describeOptional collected.versionDefinitionTable
    (describeVersionTable loadBias 20)
  let versionRequirementTable ← describeOptional collected.versionRequirementTable
    (describeVersionTable loadBias 16)
  let initArray ← describeOptional collected.initArray (describeFunctionArray loadBias)
  let finiArray ← describeOptional collected.finiArray (describeFunctionArray loadBias)
  let relTable ← describeOptional collected.relTable (describeRelTable loadBias)
  let pltRelTable ← describeOptional collected.pltRelTable (describePltRelTable loadBias)
  return {
    stringTable, symbolTable, sysvHashTable, gnuHashTable, relTable, pltRelTable
    initArray, finiArray
    versionSymbolTable, versionDefinitionTable, versionRequirementTable
    sonameOffset := collected.sonameOffset
    neededOffsets := collected.neededOffsets
    flags1 := collected.flags1
    global := collected.global
    symbolic := collected.symbolic
    hasSymbolVersioning := collected.hasSymbolVersioning }

end LibA32Android
