/-
Definite answers of a lookup are stable.

A lookup that finds a definition, or that finds out that there is none, had all
its reads answered: a failed read is always an error of its own.  So the answer
stays the same in every memory that answers these reads as before.

* `buildElf32SymbolIndex_stable`, `readElf32StringTableEntry_stable`,
  `matchElf32SymbolVersion_stable`: programs whose values are stable;
* `lookupElf32SymbolImpl_stable`: a lookup in one object, where a miss is stable
  too;
* `GraphQuery.lookupObject_stable`: the own lookup of an object of a graph.
-/
import LibA32Android.Elf.SymbolLookup

namespace LibA32Android

open Foundations QueryProgram

/-- No error is stable: the kind of programs of which only the values count. -/
abbrev NoError {ε : Type} (_ : ε) : Prop := False

/-! ### Reads -/

section Reads

variable {ε β : Type} {K : ε → Prop} {e : ε}

lemma readBytes_bind_stable {address : UInt32} {length : ℕ}
    {f : Option (List UInt8) → GuestRead ε β} (hnone : ∀ o, ¬Settled K ((f none).under o))
    (hsome : ∀ bytes, Stable K (f (some bytes))) : Stable K (readBytes address length >>= f) :=
  Stable.ask hnone hsome

lemma wordOr_readU32_stable (he : ¬K e) (address : UInt32) :
    Stable K (wordOr e (readU32 address)) :=
  Stable.ask (fun _ h => he (settled_error.mp h)) fun _ => Stable.pure _

lemma wordOr_readIndexedWord_stable (he : ¬K e) (base index : UInt32) :
    Stable K (wordOr e (readIndexedWord base index)) := by
  rw [readIndexedWord]
  split
  · exact Stable.fail e
  · exact wordOr_readU32_stable he _

/-- Only a readable range goes on. -/
lemma readableTableFrom_bind_stable {address : UInt32} {size : ℕ} {f : Bool → GuestRead ε β}
    (hfalse : ∀ o, ¬Settled K ((f false).under o)) (htrue : Stable K (f true)) (rounds offset : ℕ) :
    Stable K (readableTableFrom address size rounds offset >>= f) := by
  induction rounds generalizing offset with
  | zero => exact htrue
  | succ rounds ih =>
      rw [readableTableFrom]
      split
      · dsimp only
        split
        · exact Stable.of_unsettled hfalse
        · exact Stable.ask hfalse fun _ => ih _
      · exact htrue

lemma readableTable_bind_stable {address : UInt32} {size : ℕ} {f : Bool → GuestRead ε β}
    (hfalse : ∀ o, ¬Settled K ((f false).under o)) (htrue : Stable K (f true)) :
    Stable K (readableTable address size >>= f) := by
  rw [readableTable]
  split
  · exact htrue
  · split
    · exact Stable.of_unsettled hfalse
    · exact readableTableFrom_bind_stable hfalse htrue _ _

end Reads

/-! ### The index -/

section Index

lemma checkTable_stable (address : UInt32) (size : ℕ) :
    Stable NoError (checkTable address size) :=
  .bind (.reject _ _) fun _ =>
    readableTable_bind_stable (fun _ h => by simpa using h) (.reject _ _)

lemma tableAddress_stable (base : UInt32) (offset : ℕ) :
    Stable NoError (tableAddress base offset) := by
  rw [tableAddress]
  split
  · exact .fail _
  · exact .pure _

lemma headerWord_stable (hashAddress : UInt32) (offset : ℕ) :
    Stable NoError (headerWord hashAddress offset) := by
  rw [headerWord]
  split
  · exact .fail _
  · exact wordOr_readU32_stable id _

lemma checkSysvWords_stable (base count chainCount : UInt32) :
    Stable NoError (checkSysvWords base count chainCount) :=
  .forM fun _ _ => .bind (wordOr_readIndexedWord_stable id _ _) fun _ => .reject _ _

lemma buildSysvHash_stable (hashAddress : UInt32) (options : Elf32SymbolLookupOptions) :
    Stable NoError (buildSysvHash hashAddress options) := by
  refine .bind (wordOr_readU32_stable id _) fun bucketCount => ?_
  refine .bind (headerWord_stable _ _) fun chainCount => ?_
  refine .bind (.reject _ _) fun _ => .bind (.reject _ _) fun _ => .bind (.reject _ _) fun _ => ?_
  refine .bind (.reject _ _) fun _ => ?_
  refine .bind (tableAddress_stable _ _) fun bucketsAddress => ?_
  refine .bind (tableAddress_stable _ _) fun chainsAddress => ?_
  refine readableTable_bind_stable (fun _ h => by simpa using h) (.bind (.reject _ _) fun _ => ?_)
  refine .bind (checkSysvWords_stable _ _ _) fun _ => .bind (checkSysvWords_stable _ _ _) fun _ => ?_
  exact .pure _

lemma checkGnuBucket_stable (index : Elf32GnuHashIndex) (options : Elf32SymbolLookupOptions)
    (sysvSymbolCount : Option UInt32) (maximumBucket : UInt32) (i : ℕ) :
    Stable NoError (checkGnuBucket index options sysvSymbolCount maximumBucket i) := by
  refine .bind (wordOr_readIndexedWord_stable id _ _) fun symbolIndex => ?_
  refine .ite (fun _ => .pure _) fun _ => ?_
  exact .bind (.reject _ _) fun _ => .bind (.reject _ _) fun _ => .bind (.reject _ _) fun _ => .pure _

lemma checkGnuChain_stable (index : Elf32GnuHashIndex) (rounds : ℕ) (symbolIndex : UInt32) :
    Stable NoError (checkGnuChain index rounds symbolIndex) := by
  induction rounds generalizing symbolIndex with
  | zero => exact .fail _
  | succ rounds ih =>
      exact .bind (wordOr_readIndexedWord_stable id _ _) fun _ => .ite (fun _ => .pure _) fun _ => ih _

lemma checkGnuChains_stable (index : Elf32GnuHashIndex) (symbolCount : UInt32) :
    Stable NoError (checkGnuChains index symbolCount) := by
  refine .bind (.reject _ _) fun _ => .bind (checkTable_stable _ _) fun _ => .forM fun _ _ => ?_
  refine .bind (wordOr_readIndexedWord_stable id _ _) fun bucketSymbol => ?_
  exact .ite (fun _ => .pure _) fun _ => checkGnuChain_stable _ _ _

lemma findGnuSymbolCount_stable (index : Elf32GnuHashIndex) (rounds : ℕ) (symbolIndex : UInt32) :
    Stable NoError (findGnuSymbolCount index rounds symbolIndex) := by
  induction rounds generalizing symbolIndex with
  | zero => exact .fail _
  | succ rounds ih =>
      refine .bind (tableAddress_stable _ _) fun chainAddress => ?_
      refine .bind (wordOr_readU32_stable id _) fun chainHash => ?_
      exact .ite (fun _ => .bind (.reject _ _) fun _ => .pure _) fun _ => ih _

lemma readGnuHeader_stable (hashAddress : UInt32) (options : Elf32SymbolLookupOptions) :
    Stable NoError (readGnuHeader hashAddress options) := by
  refine .bind (headerWord_stable _ _) fun bucketCount => ?_
  refine .bind (headerWord_stable _ _) fun symbolOffset => ?_
  refine .bind (headerWord_stable _ _) fun bloomWordCount => ?_
  refine .bind (headerWord_stable _ _) fun bloomShift => ?_
  refine .bind (.reject _ _) fun _ => .bind (.reject _ _) fun _ => .bind (.reject _ _) fun _ => ?_
  refine .bind (.reject _ _) fun _ => ?_
  refine .bind (tableAddress_stable _ _) fun bloomAddress => ?_
  refine .bind (tableAddress_stable _ _) fun bucketsAddress => ?_
  refine .bind (tableAddress_stable _ _) fun chainsAddress => ?_
  refine readableTable_bind_stable (fun _ h => by simpa using h) ?_
  exact .bind (.reject _ _) fun _ => .pure _

lemma buildGnuHash_stable (hashAddress : UInt32) (options : Elf32SymbolLookupOptions)
    (sysvSymbolCount : Option UInt32) :
    Stable NoError (buildGnuHash hashAddress options sysvSymbolCount) := by
  refine .bind (readGnuHeader_stable _ _) fun index => ?_
  refine .bind (.foldlM (checkGnuBucket_stable index options sysvSymbolCount) _ _) fun
    maximumBucket => ?_
  cases sysvSymbolCount with
  | some symbolCount => exact .bind (checkGnuChains_stable _ _) fun _ => .pure _
  | none =>
      refine .ite (fun _ => .pure _) fun _ => ?_
      exact .bind (findGnuSymbolCount_stable _ _ _) fun _ => .pure _

lemma buildHashTables_stable (metadata : Elf32LinkerMetadata)
    (options : Elf32SymbolLookupOptions) : Stable NoError (buildHashTables metadata options) := by
  rw [buildHashTables]
  cases metadata.sysvHashTable with
  | none =>
      cases metadata.gnuHashTable with
      | none => exact .pure _
      | some gnuTable =>
          exact .bind (.pure _) fun _ => .bind (buildGnuHash_stable _ _ _) fun _ => .pure _
  | some sysvTable =>
      refine .bind (buildSysvHash_stable _ _) fun sysv => ?_
      cases metadata.gnuHashTable with
      | none => exact .pure _
      | some gnuTable =>
          exact .bind (.pure _) fun _ => .bind (buildGnuHash_stable _ _ _) fun _ => .pure _

/-- An index that was built is built again. -/
theorem buildElf32SymbolIndex_stable (metadata : Elf32LinkerMetadata)
    (options : Elf32SymbolLookupOptions) :
    Stable NoError (buildElf32SymbolIndex metadata options) := by
  refine .bind (.reject _ _) fun _ => .bind (.reject _ _) fun _ => ?_
  cases metadata.symbolTable with
  | none => exact .fail _
  | some symbolTable =>
      refine .bind (.reject _ _) fun _ => .bind (buildHashTables_stable _ _) fun index => ?_
      refine .bind (.reject _ _) fun _ => .bind (.reject _ _) fun _ => .bind (.reject _ _) fun _ => ?_
      refine readableTable_bind_stable (fun _ h => by simpa using h) ?_
      exact .bind (.reject _ _) fun _ => .pure _

end Index

/-! ### Strings -/

section Strings

lemma readStringChunks_stable (start remaining maxStringBytes rounds inspected : ℕ)
    (value : ByteString) :
    Stable NoError (readStringChunks start remaining maxStringBytes rounds inspected value) := by
  induction rounds generalizing inspected value with
  | zero => exact .ite (fun _ => .fail _) fun _ => .fail _
  | succ rounds ih =>
      refine .ite (fun _ => ?_) fun _ => .ite (fun _ => .fail _) fun _ => .fail _
      refine .bind (.reject _ _) fun _ =>
        readBytes_bind_stable (fun _ h => settled_error.mp h) fun buffer => ?_
      dsimp only
      split
      · exact .pure _
      · exact .fail _
      · exact ih _ _

/-- A string that was read is read again. -/
theorem readElf32StringTableEntry_stable (stringTable : Elf32StringTableMetadata)
    (offset : UInt32) (options : Elf32LinkerStringOptions) :
    Stable NoError (readElf32StringTableEntry stringTable offset options) :=
  .bind (.reject _ _) fun _ => .bind (.reject _ _) fun _ => readStringChunks_stable _ _ _ _ _ _

end Strings

/-! ### Versions -/

section Versions

lemma takeRecord_stable (budget : WalkBudget) : Stable NoError (takeRecord budget) := by
  rw [takeRecord]
  split
  · exact .fail _
  · exact .pure _

lemma readRecord_stable (address : UInt32) (size : ℕ) : Stable NoError (readRecord address size) :=
  readBytes_bind_stable (fun _ h => settled_error.mp h) fun _ => .pure _

lemma addAddress_stable (base offset : UInt32) : Stable NoError (addAddress base offset) := by
  rw [addAddress]
  split
  · exact .fail _
  · exact .pure _

lemma readVersionString_stable (stringTable : Elf32StringTableMetadata) (offset : UInt32)
    (options : Elf32SymbolVersionOptions) :
    Stable NoError (readVersionString stringTable offset options) :=
  .mapError (readElf32StringTableEntry_stable _ _ _)

lemma readVersym_stable (table : Elf32VersionSymbolTableMetadata) (symbolIndex : UInt32) :
    Stable NoError (readVersym table symbolIndex) := by
  rw [readVersym]
  split
  · exact .fail _
  · exact .bind (readRecord_stable _ _) fun _ => .pure _

lemma checkWalk_stable (metadata : Elf32LinkerMetadata) (options : Elf32SymbolVersionOptions) :
    Stable NoError (checkWalk metadata options) := by
  refine .bind (.reject _ _) fun _ => ?_
  split
  · exact .fail _
  · exact .pure _

lemma readVersionDefinition_stable (stringTable : Elf32StringTableMetadata)
    (options : Elf32SymbolVersionOptions) (current : UInt32) (record : List UInt8)
    (budget : WalkBudget) :
    Stable NoError (readVersionDefinition stringTable options current record budget) := by
  refine .bind (.reject _ _) fun _ => .bind (takeRecord_stable _) fun budget => ?_
  refine .bind (addAddress_stable _ _) fun aux => .bind (readRecord_stable _ _) fun auxRecord => ?_
  exact .bind (readVersionString_stable _ _ _) fun name => .pure _

lemma nextRecord_stable (rounds : ℕ) (current nextOffset : UInt32) :
    Stable NoError (nextRecord rounds current nextOffset) :=
  .ite (fun _ => .pure _) fun _ => .bind (.reject _ _) fun _ => addAddress_stable _ _

lemma walkVersionDefinitions_stable {σ : Type} (stringTable : Elf32StringTableMetadata)
    (options : Elf32SymbolVersionOptions) (define : σ → VersionDefinition → σ) (rounds : ℕ)
    (current : UInt32) (budget : WalkBudget) (s : σ) :
    Stable NoError
      (walkVersionDefinitions stringTable options define rounds current budget s) := by
  induction rounds generalizing current budget s with
  | zero => exact .pure _
  | succ rounds ih =>
      refine .bind (takeRecord_stable _) fun budget => .bind (readRecord_stable _ _) fun record => ?_
      refine .bind (.reject _ _) fun _ => .ite (fun _ => ?_) fun _ => ?_
      · refine .bind (readVersionDefinition_stable _ _ _ _ _) fun definition => ?_
        exact .bind (nextRecord_stable _ _ _) fun current => ih _ _ _
      · exact .bind (nextRecord_stable _ _ _) fun current => ih _ _ _

lemma expectedVersionIndex_stable (metadata : Elf32LinkerMetadata)
    (requirement : Elf32SymbolVersionRequirement) (options : Elf32SymbolVersionOptions) :
    Stable NoError (expectedVersionIndex metadata requirement options) := by
  rw [expectedVersionIndex]
  split
  · exact .pure _
  · exact .bind (checkWalk_stable _ _) fun _ => walkVersionDefinitions_stable _ _ _ _ _ _ _

/-- A version that was compared is compared again. -/
theorem matchElf32SymbolVersion_stable (metadata : Elf32LinkerMetadata) (symbolIndex : UInt32)
    (requirement : Option Elf32SymbolVersionRequirement) (options : Elf32SymbolVersionOptions) :
    Stable NoError (matchElf32SymbolVersion metadata symbolIndex requirement options) := by
  refine .bind (.reject _ _) fun _ => ?_
  split
  · exact .pure _
  · refine .bind (readVersym_stable _ _) fun rawVersion => ?_
    split
    · exact .pure _
    · exact .bind (expectedVersionIndex_stable _ _ _) fun _ => .pure _

end Versions

/-! ### Lookups -/

/-- A miss. -/
abbrev IsNotFound (failure : Elf32SymbolLookupFailure) : Prop := failure.error = .symbolNotFound

section Lookups

variable {query : LookupQuery}

lemma readSymbolBytes_bind_stable {ε β : Type} {K : ε → Prop} {table : Elf32SymbolTableMetadata}
    {symbolIndex : UInt32} {f : Option (List UInt8) → GuestRead ε β}
    (hnone : ∀ o, ¬Settled K ((f none).under o)) (hsome : ∀ bytes, Stable K (f (some bytes))) :
    Stable K (readSymbolBytes table symbolIndex >>= f) := by
  rw [readSymbolBytes]
  split
  · exact .of_unsettled hnone
  · exact readBytes_bind_stable hnone hsome

lemma readSymbol_bind_stable {ε β : Type} {K : ε → Prop} {table : Elf32SymbolTableMetadata}
    {symbolIndex : UInt32} {f : Option Elf32Symbol → GuestRead ε β}
    (hnone : ∀ o, ¬Settled K ((f none).under o)) (hsome : ∀ symbol, Stable K (f (some symbol))) :
    Stable K (readSymbol table symbolIndex >>= f) := by
  rw [readSymbol, readSymbolBytes]
  split
  · exact .of_unsettled hnone
  · exact .ask hnone fun bytes => hsome (decodeSymbol bytes)

lemma versionLookupError_ne (e : Elf32SymbolVersionError) :
    versionLookupError e ≠ .symbolNotFound := by
  cases e <;> decide

lemma evaluateDefinition_stable (symbolIndex : UInt32) (symbol : Elf32Symbol)
    (symbolName : ByteString) :
    Stable IsNotFound (query.evaluateDefinition symbolIndex symbol symbolName) := by
  refine .bind (.reject _ _) fun _ => readSymbolBytes_bind_stable (fun _ h => ?_) fun raw => ?_
  · cases settled_error.mp h
  · refine .bind (.ofExcept _) fun _ => .bind (.mapError ?_) fun matching => ?_
    · exact (matchElf32SymbolVersion_stable _ _ _ _).mono fun e h => versionLookupError_ne _ h
    · exact .ite (fun _ => .pure _) fun _ => .bind (.ofExcept _) fun _ => .pure _

lemma evaluateCandidate_stable (symbolIndex : UInt32) :
    Stable IsNotFound (query.evaluateCandidate symbolIndex) := by
  refine .bind (.reject _ _) fun _ => readSymbol_bind_stable (fun _ h => ?_) fun symbol => ?_
  · cases settled_error.mp h
  · refine .bind (.mapError ?_) fun symbolName => .ite (fun _ => .pure _) fun _ => ?_
    · exact (readElf32StringTableEntry_stable _ _ _).mono fun e h => nomatch h
    · exact .ite (fun _ => .pure _) fun _ => evaluateDefinition_stable _ _ _

lemma orElse_stable (symbolIndex : UInt32)
    {next : GuestRead Elf32SymbolLookupFailure Elf32ResolvedSymbol} (hnext : Stable IsNotFound next) :
    Stable IsNotFound (query.orElse symbolIndex next) := by
  refine .bind (evaluateCandidate_stable _) fun candidate => ?_
  cases candidate with
  | some result => exact .pure _
  | none => exact hnext

lemma walkGnuChain_stable (index : Elf32GnuHashIndex) (hash : UInt32) (rounds : ℕ)
    (symbolIndex : UInt32) :
    Stable IsNotFound (query.walkGnuChain index hash rounds symbolIndex) := by
  induction rounds generalizing symbolIndex with
  | zero => exact .fail _
  | succ rounds ih =>
      refine .bind (wordOr_readIndexedWord_stable (by decide) _ _) fun chainHash => ?_
      have hnext : Stable IsNotFound
          (if chainHash &&& 1 ≠ 0 then .fail { error := .symbolNotFound }
            else query.walkGnuChain index hash rounds (symbolIndex + 1)) :=
        .ite (fun _ => .fail _) fun _ => ih _
      exact .ite (fun _ => orElse_stable _ hnext) fun _ => hnext

lemma lookupGnu_stable (index : Elf32GnuHashIndex) :
    Stable IsNotFound (query.lookupGnu index) := by
  refine .bind (wordOr_readIndexedWord_stable (by decide) _ _) fun bloomWord => ?_
  refine .bind (.reject _ _) fun _ => ?_
  refine .bind (wordOr_readIndexedWord_stable (by decide) _ _) fun symbolIndex => ?_
  exact .bind (.reject _ _) fun _ => .bind (.reject _ _) fun _ => walkGnuChain_stable _ _ _ _

lemma walkSysvChain_stable (index : Elf32SysvHashIndex) (hops : ℕ) (symbolIndex : UInt32) :
    Stable IsNotFound (query.walkSysvChain index hops symbolIndex) := by
  induction hops generalizing symbolIndex with
  | zero => exact .ite (fun _ => .fail _) fun _ => .fail _
  | succ hops ih =>
      refine .ite (fun _ => .fail _) fun _ => orElse_stable _ ?_
      refine .bind (wordOr_readIndexedWord_stable (by decide) _ _) fun next => ?_
      exact .bind (.reject _ _) fun _ => ih _

lemma lookupSysv_stable (index : Elf32SysvHashIndex) :
    Stable IsNotFound (query.lookupSysv index) := by
  refine .bind (wordOr_readIndexedWord_stable (by decide) _ _) fun symbolIndex => ?_
  exact .bind (.reject _ _) fun _ => walkSysvChain_stable _ _ _

/-- A lookup in one object that ends in a definition or in a miss ends so again. -/
theorem lookupElf32SymbolImpl_stable (loadBias : UInt32) (metadata : Elf32LinkerMetadata)
    (index : Elf32SymbolIndex) (name : ByteString) (options : Elf32SymbolLookupOptions)
    (requirement : Option Elf32SymbolVersionRequirement) :
    Stable IsNotFound
      (lookupElf32SymbolImpl loadBias metadata index name options requirement) := by
  refine .bind (.reject _ _) fun _ => .bind (.reject _ _) fun _ => ?_
  split
  · refine .bind (.reject _ _) fun _ => ?_
    dsimp only
    split
    · exact lookupGnu_stable _
    · exact lookupSysv_stable _
    · exact .fail _
  · exact .fail _

/-- The own lookup of an object that ends in a definition or passes on does so again. -/
theorem GraphQuery.lookupObject_stable (query : GraphQuery) (objectIndex : ℕ) :
    Stable NoError (query.lookupObject objectIndex) := by
  refine .ite (fun _ => .pure _) fun _ => ?_
  refine .bind (.mapError (buildElf32SymbolIndex_stable _ _)) fun index => ?_
  refine .attempt_bind (lookupElf32SymbolImpl_stable _ _ _ _ _ _) (fun failure hfailure o h => ?_)
    fun lookup => ?_
  · dsimp only at h
    rw [if_pos hfailure] at h
    exact settled_error.mp h
  · cases lookup with
    | ok symbol => exact .pure _
    | error failure => exact .ite (fun _ => .fail _) fun _ => .pure _

end Lookups

end LibA32Android
