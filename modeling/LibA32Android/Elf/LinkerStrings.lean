/-
Strings of the dynamic string table (`elf/elf32_linker_strings.h`,
`elf/metadata/elf32_linker_strings.cpp`).

* `readElf32StringTableEntry`: one string, read in chunks of 256 bytes up to
  its terminator, the end of the table or the limit;
* `buildElf32LinkerStrings`: the `DT_SONAME` and `DT_NEEDED` names.
-/
import LibA32Android.Elf.LinkerMetadata

namespace LibA32Android

open Foundations QueryProgram

/-- `Elf32LinkerStringError`, without `None`. -/
inductive Elf32LinkerStringError where
  | missingStringTable
  | stringOffsetOutOfRange
  | addressOverflow
  | readFailed
  | unterminatedString
  | stringTooLong
  deriving DecidableEq, Repr

/-- `Elf32LinkerStringOptions`. -/
structure Elf32LinkerStringOptions where
  maxStringBytes : UInt32
  deriving DecidableEq, Repr

/-- What the byte loop over one chunk ends with. -/
inductive ChunkScan where
  | terminated (value : ByteString)
  | tooLong
  | more (value : ByteString)
  deriving DecidableEq, Repr

/-- The byte loop over the rest of a chunk: `position` counts payload bytes,
`value` holds those seen so far. -/
def scanChunk (maxStringBytes : ℕ) : List UInt8 → ℕ → ByteString → ChunkScan
  | [], _, value => .more value
  | byte :: rest, position, value =>
    if byte = 0 then .terminated value
    else if position ≥ maxStringBytes then .tooLong
    else scanChunk maxStringBytes rest (position + 1) (value ++ [byte])

/-- After the chunk loop. -/
def endOfString {α : Type} (inspected remaining : ℕ) : GuestRead Elf32LinkerStringError α :=
  if inspected ≥ remaining then .fail .unterminatedString else .fail .stringTooLong

/-- The chunk loop; each round inspects at least one byte, so `rounds` starts at
the number of bytes that may be inspected. -/
def readStringChunks (start remaining maxStringBytes : ℕ) :
    ℕ → ℕ → ByteString → GuestRead Elf32LinkerStringError ByteString
  | 0, inspected, _ => endOfString inspected remaining
  | rounds + 1, inspected, value =>
    if inspected < remaining ∧ inspected < maxStringBytes + 1 then do
      let chunk := min 256 (min (remaining - inspected) (maxStringBytes + 1 - inspected))
      let current := start + inspected
      let last := current + chunk - 1
      reject (current > 0xffffffff ∨ last > 0xffffffff) .addressOverflow
      match ← readBytes (UInt32.ofNat current) chunk with
      | none => .fail .readFailed
      | some buffer =>
        match scanChunk maxStringBytes buffer inspected value with
        | .terminated value => return value
        | .tooLong => .fail .stringTooLong
        | .more value =>
          readStringChunks start remaining maxStringBytes rounds (inspected + chunk) value
    else endOfString inspected remaining

/-- `read_elf32_string_table_entry`. -/
def readElf32StringTableEntry (stringTable : Elf32StringTableMetadata) (offset : UInt32)
    (options : Elf32LinkerStringOptions) : GuestRead Elf32LinkerStringError ByteString := do
  reject (offset ≥ stringTable.size) .stringOffsetOutOfRange
  let start := stringTable.guestAddress.toNat + offset.toNat
  reject (start > 0xffffffff) .addressOverflow
  let remaining := stringTable.size.toNat - offset.toNat
  let maxStringBytes := options.maxStringBytes.toNat
  readStringChunks start remaining maxStringBytes (min remaining (maxStringBytes + 1)) 0 []

/-- `Elf32LinkerStrings`. -/
structure Elf32LinkerStrings where
  soname : Option ByteString := none
  needed : List ByteString := []
  deriving DecidableEq, Repr

/-- The names of a list of offsets. -/
def readNeeded (table : Elf32StringTableMetadata) (options : Elf32LinkerStringOptions) :
    List UInt32 → GuestRead Elf32LinkerStringError (List ByteString)
  | [] => return []
  | offset :: offsets => do
    let name ← readElf32StringTableEntry table offset options
    let names ← readNeeded table options offsets
    return name :: names

/-- `build_elf32_linker_strings`. -/
def buildElf32LinkerStrings (metadata : Elf32LinkerMetadata)
    (options : Elf32LinkerStringOptions) :
    GuestRead Elf32LinkerStringError Elf32LinkerStrings :=
  if metadata.sonameOffset.isNone ∧ metadata.neededOffsets = [] then return {}
  else
    match metadata.stringTable with
    | none => .fail .missingStringTable
    | some table => do
      let soname ← match metadata.sonameOffset with
        | none => pure none
        | some offset => do
          let soname ← readElf32StringTableEntry table offset options
          pure (some soname)
      let needed ← readNeeded table options metadata.neededOffsets
      return { soname, needed }

end LibA32Android
