/-
Indexing the dynamic symbols of an object (`elf/elf32_symbol_lookup.h` and the
first part of `elf/linking/elf32_symbol_lookup.cpp`).

* `buildElf32SymbolIndex`: read and check the SysV and GNU hash tables and find
  the number of symbols;
* `readElf32SymbolEntry`: one entry of the symbol table.
-/
import LibA32Android.Elf.LinkerStrings

namespace LibA32Android

open Foundations QueryProgram

/-- `Elf32SymbolLookupOptions`. -/
structure Elf32SymbolLookupOptions where
  maxSymbols : UInt32
  maxHashBuckets : UInt32
  maxGnuBloomWords : UInt32
  maxScopeObjects : UInt32
  maxNameBytes : UInt32
  maxVersionRecords : UInt32
  globalScopeObjects : List ℕ := []
  deriving DecidableEq, Repr

/-- `Elf32SysvHashIndex`. -/
structure Elf32SysvHashIndex where
  bucketCount : UInt32
  chainCount : UInt32
  bucketsGuestAddress : UInt32
  chainsGuestAddress : UInt32
  deriving DecidableEq, Repr

/-- `Elf32GnuHashIndex`. -/
structure Elf32GnuHashIndex where
  bucketCount : UInt32
  symbolOffset : UInt32
  bloomWordCount : UInt32
  bloomShift : UInt32
  bloomGuestAddress : UInt32
  bucketsGuestAddress : UInt32
  chainsGuestAddress : UInt32
  deriving DecidableEq, Repr

/-- `Elf32SymbolIndex`. -/
structure Elf32SymbolIndex where
  symbolCount : UInt32
  sysvHash : Option Elf32SysvHashIndex := none
  gnuHash : Option Elf32GnuHashIndex := none
  deriving DecidableEq, Repr

/-- `Elf32SymbolIndexError`, without `None`. -/
inductive Elf32SymbolIndexError where
  | invalidOptions
  | missingStringTable
  | missingSymbolTable
  | missingHashTable
  | hashHeaderReadFailed
  | hashRangeOverflow
  | hashReadFailed
  | invalidSysvHash
  | invalidGnuHash
  | hashLimitExceeded
  | hashIndexOutOfRange
  | unterminatedGnuChain
  | symbolCountExceeded
  | symbolRangeOverflow
  | symbolReadFailed
  deriving DecidableEq, Repr

/-! ### Reads -/

/-- `read_u32`. -/
def readU32 {ε : Type} (address : UInt32) : GuestRead ε (Option UInt32) := do
  let bytes ← readBytes address 4
  return bytes.map (decodeU32Le · 0)

/-- `read_indexed_word`; an address overflow is a failed read. -/
def readIndexedWord {ε : Type} (base index : UInt32) : GuestRead ε (Option UInt32) :=
  match checkedAddGuestAddress base (index.toNat * 4) with
  | none => return none
  | some address => readU32 address

/-- Such a read, or the error of the caller. -/
def wordOr {ε : Type} (e : ε) (read : GuestRead ε (Option UInt32)) : GuestRead ε UInt32 := do
  match ← read with
  | none => .fail e
  | some value => return value

/-- `range_fits`. -/
def rangeFits (address : UInt32) (size : ℕ) : Bool := address.toNat + size ≤ 2 ^ 32

/-- The chunk loop of `readable_range`; each round reads at least one byte. -/
def readableTableFrom {ε : Type} (address : UInt32) (size : ℕ) : ℕ → ℕ → GuestRead ε Bool
  | 0, _ => return true
  | rounds + 1, offset => do
    if offset < size then
      let chunk := min 256 (size - offset)
      let current := address.toNat + offset
      if current > 0xffffffff then return false
      else
        match ← readBytes (UInt32.ofNat current) chunk with
        | none => return false
        | some _ => readableTableFrom address size rounds (offset + chunk)
    else return true

/-- `readable_range` of this file. -/
def readableTable {ε : Type} (address : UInt32) (size : ℕ) : GuestRead ε Bool :=
  if size = 0 then return true
  else if !rangeFits address size then return false
  else readableTableFrom address size size 0

/-- A checked range: it fits and is readable. -/
def checkTable (address : UInt32) (size : ℕ) : GuestRead Elf32SymbolIndexError Unit := do
  reject (!rangeFits address size) .hashRangeOverflow
  let readable ← readableTable address size
  reject (!readable) .hashReadFailed

/-- `checked_add_guest_address`, or a range error. -/
def tableAddress (base : UInt32) (offset : ℕ) : GuestRead Elf32SymbolIndexError UInt32 :=
  match checkedAddGuestAddress base offset with
  | none => .fail .hashRangeOverflow
  | some address => return address

/-- A word of the hash header. -/
def headerWord (hashAddress : UInt32) (offset : ℕ) : GuestRead Elf32SymbolIndexError UInt32 :=
  match checkedAddGuestAddress hashAddress offset with
  | none => .fail .hashHeaderReadFailed
  | some address => wordOr .hashHeaderReadFailed (readU32 address)

/-! ### The SysV table -/

/-- The bucket loop and the chain loop of the SysV table: every entry is a
symbol or zero. -/
def checkSysvWords (base count chainCount : UInt32) : GuestRead Elf32SymbolIndexError Unit :=
  (List.range count.toNat).forM fun i => do
    let symbolIndex ← wordOr .hashReadFailed (readIndexedWord base (UInt32.ofNat i))
    reject (symbolIndex ≥ chainCount ∧ symbolIndex ≠ 0) .hashIndexOutOfRange

/-- The SysV part of `build_elf32_symbol_index`. -/
def buildSysvHash (hashAddress : UInt32) (options : Elf32SymbolLookupOptions) :
    GuestRead Elf32SymbolIndexError Elf32SysvHashIndex := do
  let bucketCount ← wordOr .hashHeaderReadFailed (readU32 hashAddress)
  let chainCount ← headerWord hashAddress 4
  reject (bucketCount = 0 ∨ chainCount = 0) .invalidSysvHash
  reject (bucketCount > options.maxHashBuckets) .hashLimitExceeded
  reject (chainCount > options.maxSymbols) .symbolCountExceeded
  let bucketBytes := bucketCount.toNat * 4
  let chainBytes := chainCount.toNat * 4
  let totalBytes := 8 + bucketBytes + chainBytes
  reject (!rangeFits hashAddress totalBytes) .hashRangeOverflow
  let bucketsAddress ← tableAddress hashAddress 8
  let chainsAddress ← tableAddress bucketsAddress bucketBytes
  let readable ← readableTable hashAddress totalBytes
  reject (!readable) .hashReadFailed
  checkSysvWords bucketsAddress bucketCount chainCount
  checkSysvWords chainsAddress chainCount chainCount
  return { bucketCount, chainCount, bucketsGuestAddress := bucketsAddress,
           chainsGuestAddress := chainsAddress }

/-! ### The GNU table -/

/-- One round of the bucket loop, which keeps the largest entry. -/
def checkGnuBucket (index : Elf32GnuHashIndex) (options : Elf32SymbolLookupOptions)
    (sysvSymbolCount : Option UInt32) (maximumBucket : UInt32) (i : ℕ) :
    GuestRead Elf32SymbolIndexError UInt32 := do
  let symbolIndex ← wordOr .hashReadFailed
    (readIndexedWord index.bucketsGuestAddress (UInt32.ofNat i))
  if symbolIndex = 0 then return maximumBucket
  else
    reject (symbolIndex < index.symbolOffset) .invalidGnuHash
    reject (symbolIndex ≥ options.maxSymbols) .symbolCountExceeded
    reject (∃ count ∈ sysvSymbolCount, symbolIndex ≥ count) .hashIndexOutOfRange
    return max maximumBucket symbolIndex

/-- The termination walk of one bucket inside the SysV extent, over the symbols
left. -/
def checkGnuChain (index : Elf32GnuHashIndex) :
    ℕ → UInt32 → GuestRead Elf32SymbolIndexError Unit
  | 0, _ => .fail .unterminatedGnuChain
  | rounds + 1, symbolIndex => do
    let chainHash ← wordOr .hashReadFailed
      (readIndexedWord index.chainsGuestAddress (symbolIndex - index.symbolOffset))
    if chainHash &&& 1 ≠ 0 then return ()
    else checkGnuChain index rounds (symbolIndex + 1)

/-- The checks of the GNU chains against the extent that the SysV table gives. -/
def checkGnuChains (index : Elf32GnuHashIndex) (symbolCount : UInt32) :
    GuestRead Elf32SymbolIndexError Unit := do
  reject (index.symbolOffset > symbolCount) .invalidGnuHash
  checkTable index.chainsGuestAddress ((symbolCount.toNat - index.symbolOffset.toNat) * 4)
  (List.range index.bucketCount.toNat).forM fun i => do
    let bucketSymbol ← wordOr .hashReadFailed
      (readIndexedWord index.bucketsGuestAddress (UInt32.ofNat i))
    if bucketSymbol = 0 then return ()
    else checkGnuChain index (symbolCount.toNat - bucketSymbol.toNat) bucketSymbol

/-- The walk from the largest bucket that finds the number of symbols, over the
symbols that `max_symbols` leaves. -/
def findGnuSymbolCount (index : Elf32GnuHashIndex) :
    ℕ → UInt32 → GuestRead Elf32SymbolIndexError UInt32
  | 0, _ => .fail .unterminatedGnuChain
  | rounds + 1, symbolIndex => do
    let chainAddress ← tableAddress index.chainsGuestAddress
      ((symbolIndex.toNat - index.symbolOffset.toNat) * 4)
    let chainHash ← wordOr .hashReadFailed (readU32 chainAddress)
    if chainHash &&& 1 ≠ 0 then
      reject (symbolIndex = 0xffffffff) .symbolCountExceeded
      return symbolIndex + 1
    else findGnuSymbolCount index rounds (symbolIndex + 1)

/-- The header of the GNU table and the addresses of its parts. -/
def readGnuHeader (hashAddress : UInt32) (options : Elf32SymbolLookupOptions) :
    GuestRead Elf32SymbolIndexError Elf32GnuHashIndex := do
  let bucketCount ← headerWord hashAddress 0
  let symbolOffset ← headerWord hashAddress 4
  let bloomWordCount ← headerWord hashAddress 8
  let bloomShift ← headerWord hashAddress 12
  reject (bucketCount = 0 ∨ symbolOffset = 0
      ∨ ¬(bloomWordCount ≠ 0 ∧ bloomWordCount &&& (bloomWordCount - 1) = 0)
      ∨ bloomShift ≥ 32) .invalidGnuHash
  reject (bucketCount > options.maxHashBuckets ∨ bloomWordCount > options.maxGnuBloomWords)
    .hashLimitExceeded
  reject (symbolOffset > options.maxSymbols) .symbolCountExceeded
  let bloomBytes := bloomWordCount.toNat * 4
  let bucketBytes := bucketCount.toNat * 4
  let prefixBytes := 16 + bloomBytes + bucketBytes
  reject (!rangeFits hashAddress prefixBytes) .hashRangeOverflow
  let bloomAddress ← tableAddress hashAddress 16
  let bucketsAddress ← tableAddress bloomAddress bloomBytes
  let chainsAddress ← tableAddress bucketsAddress bucketBytes
  let readable ← readableTable hashAddress prefixBytes
  reject (!readable) .hashReadFailed
  return { bucketCount, symbolOffset, bloomWordCount, bloomShift,
           bloomGuestAddress := bloomAddress, bucketsGuestAddress := bucketsAddress,
           chainsGuestAddress := chainsAddress }

/-- The GNU part of `build_elf32_symbol_index`, with the number of symbols. -/
def buildGnuHash (hashAddress : UInt32) (options : Elf32SymbolLookupOptions)
    (sysvSymbolCount : Option UInt32) :
    GuestRead Elf32SymbolIndexError (Elf32GnuHashIndex × UInt32) := do
  let index ← readGnuHeader hashAddress options
  let maximumBucket ← (List.range index.bucketCount.toNat).foldlM
    (checkGnuBucket index options sysvSymbolCount) 0
  match sysvSymbolCount with
  | some symbolCount =>
    checkGnuChains index symbolCount
    return (index, symbolCount)
  | none =>
    if maximumBucket = 0 then return (index, index.symbolOffset)
    else
      let symbolCount ← findGnuSymbolCount index
        (options.maxSymbols.toNat - maximumBucket.toNat) maximumBucket
      return (index, symbolCount)

/-! ### The index -/

/-- The hash tables that are there, with the number of symbols. -/
def buildHashTables (metadata : Elf32LinkerMetadata) (options : Elf32SymbolLookupOptions) :
    GuestRead Elf32SymbolIndexError Elf32SymbolIndex := do
  let sysvHash ← match metadata.sysvHashTable with
    | none => pure none
    | some table => do
      let sysv ← buildSysvHash table.guestAddress options
      pure (some sysv)
  let sysvSymbolCount := sysvHash.map (·.chainCount)
  match metadata.gnuHashTable with
  | none => return { symbolCount := sysvSymbolCount.getD 0, sysvHash }
  | some table =>
    let (gnu, symbolCount) ← buildGnuHash table.guestAddress options sysvSymbolCount
    return { symbolCount, sysvHash, gnuHash := some gnu }

/-- `build_elf32_symbol_index`. -/
def buildElf32SymbolIndex (metadata : Elf32LinkerMetadata) (options : Elf32SymbolLookupOptions) :
    GuestRead Elf32SymbolIndexError Elf32SymbolIndex := do
  reject (options.maxSymbols = 0 ∨ options.maxHashBuckets = 0 ∨ options.maxGnuBloomWords = 0)
    .invalidOptions
  reject metadata.stringTable.isNone .missingStringTable
  match metadata.symbolTable with
  | none => .fail .missingSymbolTable
  | some symbolTable =>
    reject (metadata.sysvHashTable.isNone ∧ metadata.gnuHashTable.isNone) .missingHashTable
    let index ← buildHashTables metadata options
    reject (index.symbolCount = 0) .invalidGnuHash
    reject (index.symbolCount > options.maxSymbols) .symbolCountExceeded
    let symbolBytes := index.symbolCount.toNat * 16
    reject (!rangeFits symbolTable.guestAddress symbolBytes) .symbolRangeOverflow
    let readable ← readableTable symbolTable.guestAddress symbolBytes
    reject (!readable) .symbolReadFailed
    return index

/-! ### Symbols -/

/-- `Elf32Symbol`. -/
structure Elf32Symbol where
  nameOffset : UInt32
  value : UInt32
  size : UInt32
  binding : UInt8
  type : UInt8
  visibility : UInt8
  rawOther : UInt8
  sectionIndex : UInt16
  deriving DecidableEq, Repr

/-- The fields of an entry of the symbol table. -/
def decodeSymbol (bytes : List UInt8) : Elf32Symbol where
  nameOffset := decodeU32Le bytes 0
  value := decodeU32Le bytes 4
  size := decodeU32Le bytes 8
  binding := bytes.getD 12 0 >>> 4
  type := bytes.getD 12 0 &&& 0x0f
  visibility := bytes.getD 13 0 &&& 0x03
  rawOther := bytes.getD 13 0
  sectionIndex := decodeU16Le bytes 14

/-- The bytes of an entry of the symbol table. -/
def readSymbolBytes {ε : Type} (table : Elf32SymbolTableMetadata) (symbolIndex : UInt32) :
    GuestRead ε (Option (List UInt8)) :=
  match checkedAddGuestAddress table.guestAddress (symbolIndex.toNat * 16) with
  | none => return none
  | some address => readBytes address 16

/-- `read_symbol`. -/
def readSymbol {ε : Type} (table : Elf32SymbolTableMetadata) (symbolIndex : UInt32) :
    GuestRead ε (Option Elf32Symbol) := do
  let bytes ← readSymbolBytes table symbolIndex
  return bytes.map decodeSymbol

/-- `Elf32SymbolReadError`, without `None`. -/
inductive Elf32SymbolReadError where
  | invalidMetadata
  | symbolIndexOutOfRange
  | symbolReadFailed
  deriving DecidableEq, Repr

/-- `read_elf32_symbol_entry`. -/
def readElf32SymbolEntry (metadata : Elf32LinkerMetadata) (index : Elf32SymbolIndex)
    (symbolIndex : UInt32) : GuestRead Elf32SymbolReadError Elf32Symbol :=
  match metadata.symbolTable with
  | none => .fail .invalidMetadata
  | some symbolTable => do
    reject (symbolTable.entrySize ≠ 16 ∨ index.symbolCount = 0) .invalidMetadata
    reject (symbolIndex ≥ index.symbolCount) .symbolIndexOutOfRange
    match ← readSymbol symbolTable symbolIndex with
    | none => .fail .symbolReadFailed
    | some symbol => return symbol

end LibA32Android
