/-
Ceilings do not change answers.

The ceilings of `Elf32SymbolLookupOptions` cut a search short: whatever they stop is
an error of its own.  So a search that ends in a definition, or in the miss of the
whole scope, ends the same way under larger ceilings.  One place needs the memory:
a larger `max_name_bytes` makes the chunks of a string longer, and these reads
succeed because the string table may be read as a whole.

* `Elf32SymbolLookupOptions.Below`: no ceiling is larger, and the global scope is
  the same;
* `buildElf32SymbolIndex_carries`, `readElf32StringTableEntry_carries`,
  `matchElf32SymbolVersion_carries`, `lookupElf32SymbolImpl_carries`: the layers of
  one lookup;
* `lookup_of_larger_ceilings`: both graph lookups.
-/
import LibA32Android.Elf.ConservativeAppend
import LibA32Android.Elf.StringScan
import LibA32Android.Foundations.Carries

namespace LibA32Android

open Foundations QueryProgram

/-- Each ceiling is at most the other one, and the global scope is the same. -/
structure Elf32SymbolLookupOptions.Below (options options' : Elf32SymbolLookupOptions) : Prop where
  maxSymbols : options.maxSymbols ≤ options'.maxSymbols
  maxHashBuckets : options.maxHashBuckets ≤ options'.maxHashBuckets
  maxGnuBloomWords : options.maxGnuBloomWords ≤ options'.maxGnuBloomWords
  maxScopeObjects : options.maxScopeObjects ≤ options'.maxScopeObjects
  maxNameBytes : options.maxNameBytes ≤ options'.maxNameBytes
  maxVersionRecords : options.maxVersionRecords ≤ options'.maxVersionRecords
  globalScopeObjects : options.globalScopeObjects = options'.globalScopeObjects

/-- The string table of the object may be read as a whole. -/
def StringsReadable (m : MappedGuestMemory) (metadata : Elf32LinkerMetadata) : Prop :=
  ∀ table, metadata.stringTable = some table →
    m.Readable table.guestAddress.toNat table.size.toNat

variable {m : MappedGuestMemory} {options options' : Elf32SymbolLookupOptions}

/-- A ceiling that is not zero stays so. -/
lemma eq_zero_of_le_of_eq_zero {a b : UInt32} (h : a ≤ b) (hb : b = 0) : a = 0 := by
  subst hb
  exact UInt32.le_zero_iff.mp h

/-! ### The index -/

section Index

lemma buildSysvHash_carries (hbelow : options.Below options') (hashAddress : UInt32) :
    Carries (GuestMemory.reads m) NoError Eq (buildSysvHash hashAddress options)
      (buildSysvHash hashAddress options') := by
  refine .bind_same fun bucketCount _ => .bind_same fun chainCount _ => .bind_same fun _ _ => ?_
  refine .reject_bind id (UInt32.lt_of_le_of_lt hbelow.maxHashBuckets) fun _ => ?_
  exact .reject_bind id (UInt32.lt_of_le_of_lt hbelow.maxSymbols) fun _ => .refl _

lemma checkGnuBucket_carries (hbelow : options.Below options') (index : Elf32GnuHashIndex)
    (sysvSymbolCount : Option UInt32) (maximumBucket : UInt32) (i : ℕ) :
    Carries (GuestMemory.reads m) NoError Eq
      (checkGnuBucket index options sysvSymbolCount maximumBucket i)
      (checkGnuBucket index options' sysvSymbolCount maximumBucket i) := by
  refine .bind_same fun symbolIndex _ => .ite (fun _ => .refl _) fun _ => .bind_same fun _ _ => ?_
  exact .reject_bind id (UInt32.le_trans hbelow.maxSymbols) fun _ => .refl _

/-- The walk that finds the number of symbols, with more rounds left. -/
lemma findGnuSymbolCount_carries (index : Elf32GnuHashIndex) {rounds rounds' : ℕ}
    (hle : rounds ≤ rounds') (symbolIndex : UInt32) :
    Carries (GuestMemory.reads m) NoError Eq (findGnuSymbolCount index rounds symbolIndex)
      (findGnuSymbolCount index rounds' symbolIndex) := by
  induction rounds generalizing rounds' symbolIndex with
  | zero => exact .fail id _
  | succ rounds ih =>
      obtain ⟨rounds', rfl⟩ : ∃ r, rounds' = r + 1 := ⟨rounds' - 1, by omega⟩
      refine .bind_same fun chainAddress _ => .bind_same fun chainHash _ => ?_
      exact .ite (fun _ => .refl _) fun _ => ih (Nat.le_of_succ_le_succ hle) _

lemma readGnuHeader_carries (hbelow : options.Below options') (hashAddress : UInt32) :
    Carries (GuestMemory.reads m) NoError Eq (readGnuHeader hashAddress options)
      (readGnuHeader hashAddress options') := by
  refine .bind_same fun bucketCount _ => .bind_same fun symbolOffset _ => ?_
  refine .bind_same fun bloomWordCount _ => .bind_same fun bloomShift _ => .bind_same fun _ _ => ?_
  refine .reject_bind id (fun h => ?_) fun _ => ?_
  · exact h.imp (UInt32.lt_of_le_of_lt hbelow.maxHashBuckets)
      (UInt32.lt_of_le_of_lt hbelow.maxGnuBloomWords)
  · exact .reject_bind id (UInt32.lt_of_le_of_lt hbelow.maxSymbols) fun _ => .refl _

lemma buildGnuHash_carries (hbelow : options.Below options') (hashAddress : UInt32)
    (sysvSymbolCount : Option UInt32) :
    Carries (GuestMemory.reads m) NoError Eq (buildGnuHash hashAddress options sysvSymbolCount)
      (buildGnuHash hashAddress options' sysvSymbolCount) := by
  refine .bind_eq (readGnuHeader_carries hbelow _) fun index _ => ?_
  refine .bind_eq (.foldlM (checkGnuBucket_carries hbelow index sysvSymbolCount) _ _) fun
    maximumBucket _ => ?_
  cases sysvSymbolCount with
  | some symbolCount => exact .refl _
  | none =>
      refine .ite (fun _ => .refl _) fun _ => ?_
      exact .bind_eq (findGnuSymbolCount_carries _ (Nat.sub_le_sub_right hbelow.maxSymbols _) _)
        fun _ _ => .refl _

lemma buildHashTables_carries (hbelow : options.Below options') (metadata : Elf32LinkerMetadata) :
    Carries (GuestMemory.reads m) NoError Eq (buildHashTables metadata options)
      (buildHashTables metadata options') := by
  rw [buildHashTables, buildHashTables]
  cases metadata.sysvHashTable with
  | none =>
      cases metadata.gnuHashTable with
      | none => exact .refl _
      | some gnuTable =>
          exact .bind_same fun _ _ => .bind_eq (buildGnuHash_carries hbelow _ _) fun _ _ => .refl _
  | some sysvTable =>
      refine .bind_eq (buildSysvHash_carries hbelow _) fun sysv _ => ?_
      cases metadata.gnuHashTable with
      | none => exact .refl _
      | some gnuTable =>
          exact .bind_same fun _ _ => .bind_eq (buildGnuHash_carries hbelow _ _) fun _ _ => .refl _

/-- An index that was built is built under larger ceilings. -/
lemma buildElf32SymbolIndex_carries (hbelow : options.Below options')
    (metadata : Elf32LinkerMetadata) :
    Carries (GuestMemory.reads m) NoError Eq (buildElf32SymbolIndex metadata options)
      (buildElf32SymbolIndex metadata options') := by
  refine .reject_bind id (fun h => ?_) fun _ => .bind_same fun _ _ => ?_
  · exact h.imp (eq_zero_of_le_of_eq_zero hbelow.maxSymbols) (Or.imp
      (eq_zero_of_le_of_eq_zero hbelow.maxHashBuckets)
      (eq_zero_of_le_of_eq_zero hbelow.maxGnuBloomWords))
  · cases metadata.symbolTable with
    | none => exact .refl _
    | some symbolTable =>
        refine .bind_same fun _ _ => .bind_eq (buildHashTables_carries hbelow _) fun index _ => ?_
        refine .bind_same fun _ _ => ?_
        exact .reject_bind id (UInt32.lt_of_le_of_lt hbelow.maxSymbols) fun _ => .refl _

end Index

/-! ### Strings -/

/-- An entry of a readable table that was read is read under a larger limit. -/
lemma readElf32StringTableEntry_carries {table : Elf32StringTableMetadata}
    (htable : m.Readable table.guestAddress.toNat table.size.toNat) (offset : UInt32)
    {limit limit' : UInt32} (hle : limit ≤ limit') :
    Carries (GuestMemory.reads m) NoError Eq
      (readElf32StringTableEntry table offset { maxStringBytes := limit })
      (readElf32StringTableEntry table offset { maxStringBytes := limit' }) := by
  by_cases hoffset : offset < table.size
  · refine ⟨fun string hstring => ⟨string, ?_, rfl⟩, fun _ _ hnot => hnot.elim⟩
    rw [readElf32StringTableEntry_scan _ htable hoffset, ChunkScan.outcome_eq_ok] at hstring ⊢
    exact scanChunk_limit hle hstring
  · rw [readElf32StringTableEntry, reject, if_pos (UInt32.not_lt.mp hoffset)]
    exact .fail id _

/-! ### Versions -/

/-- The same number of records taken, from a budget that is not smaller. -/
def WalkBudget.Below (budget budget' : WalkBudget) : Prop :=
  budget.used = budget'.used ∧ budget.limit ≤ budget'.limit

/-- The same found value, and budgets that differ in the limit only. -/
def FoundBelow {α : Type} (x x' : α × WalkBudget) : Prop := x.1 = x'.1 ∧ x.2.Below x'.2

section Versions

variable {table : Elf32StringTableMetadata} {budget budget' : WalkBudget}

/-- The budgets that the walks start with. -/
lemma Elf32SymbolLookupOptions.Below.walkBudget (hbelow : options.Below options') :
    WalkBudget.Below { limit := (versionOptions options).maxRecords.toNat }
      { limit := (versionOptions options').maxRecords.toNat } :=
  ⟨rfl, hbelow.maxVersionRecords⟩

lemma takeRecord_carries (hbudget : budget.Below budget') :
    Carries (GuestMemory.reads m) NoError WalkBudget.Below (takeRecord budget)
      (takeRecord budget') := by
  obtain ⟨hused, hlimit⟩ := hbudget
  rw [takeRecord, takeRecord, WalkBudget.take, WalkBudget.take]
  by_cases hfull : budget.used ≥ budget.limit
  · rw [if_pos hfull]
    exact .fail id _
  · rw [if_neg hfull]
    by_cases hfull' : budget'.used ≥ budget'.limit
    · omega
    · rw [if_neg hfull']
      exact .pure ⟨congrArg (· + 1) hused, hlimit⟩

lemma readVersionString_carries (hbelow : options.Below options')
    (htable : m.Readable table.guestAddress.toNat table.size.toNat) (offset : UInt32) :
    Carries (GuestMemory.reads m) NoError Eq
      (readVersionString table offset (versionOptions options))
      (readVersionString table offset (versionOptions options')) :=
  .mapError (readElf32StringTableEntry_carries htable offset hbelow.maxNameBytes)

lemma checkWalk_carries (hbelow : options.Below options') (metadata : Elf32LinkerMetadata) :
    Carries (GuestMemory.reads m) NoError Eq (checkWalk metadata (versionOptions options))
      (checkWalk metadata (versionOptions options')) :=
  .reject_bind id (Or.imp (eq_zero_of_le_of_eq_zero hbelow.maxVersionRecords)
    (eq_zero_of_le_of_eq_zero hbelow.maxNameBytes)) fun _ => .refl _

/-- The table that a walk gets is that of the object. -/
lemma checkWalk_readable {metadata : Elf32LinkerMetadata} (hstrings : StringsReadable m metadata)
    {versions : Elf32SymbolVersionOptions}
    (h : (checkWalk metadata versions).under (GuestMemory.reads m) = .ok table) :
    m.Readable table.guestAddress.toNat table.size.toNat := by
  rw [checkWalk, under_bind, under_reject, refuse_bind_ok_iff] at h
  cases htable : metadata.stringTable with
  | none =>
      rw [htable] at h
      exact nomatch h.2
  | some table' =>
      rw [htable] at h
      obtain rfl : table' = table := Except.ok.inj h.2
      exact hstrings table' htable

lemma readVersionDefinition_carries (hbelow : options.Below options')
    (htable : m.Readable table.guestAddress.toNat table.size.toNat) (current : UInt32)
    (record : List UInt8) (hbudget : budget.Below budget') :
    Carries (GuestMemory.reads m) NoError FoundBelow
      (readVersionDefinition table (versionOptions options) current record budget)
      (readVersionDefinition table (versionOptions options') current record budget') := by
  refine .bind_same fun _ _ => .bind (takeRecord_carries hbudget) fun left left' _ hleft => ?_
  refine .bind_same fun aux _ => .bind_same fun auxRecord _ => ?_
  exact .bind_eq (readVersionString_carries hbelow htable _) fun name _ => .pure ⟨rfl, hleft⟩

lemma walkVersionDefinitions_carries {σ : Type} (hbelow : options.Below options')
    (htable : m.Readable table.guestAddress.toNat table.size.toNat)
    (define : σ → VersionDefinition → σ) (rounds : ℕ) (current : UInt32)
    (hbudget : budget.Below budget') (s : σ) :
    Carries (GuestMemory.reads m) NoError Eq
      (walkVersionDefinitions table (versionOptions options) define rounds current budget s)
      (walkVersionDefinitions table (versionOptions options') define rounds current budget' s) := by
  induction rounds generalizing current budget budget' s with
  | zero => exact .refl _
  | succ rounds ih =>
      refine .bind (takeRecord_carries hbudget) fun left left' _ hleft => ?_
      refine .bind_same fun record _ => .bind_same fun _ _ => .ite (fun _ => ?_) fun _ => ?_
      · refine .bind (readVersionDefinition_carries hbelow htable _ _ hleft) ?_
        rintro ⟨definition, left⟩ ⟨_, left'⟩ - ⟨rfl, hleft⟩
        exact .bind_same fun current _ => ih current hleft _
      · exact .bind_same fun current _ => ih current hleft _

lemma walkVersionAux_carries (hbelow : options.Below options')
    (htable : m.Readable table.guestAddress.toNat table.size.toNat) (sourceIndex : UInt16)
    (targetObject rounds : ℕ) (aux : UInt32) (hbudget : budget.Below budget')
    (found : Option Elf32SymbolVersionRequirement) :
    Carries (GuestMemory.reads m) NoError FoundBelow
      (walkVersionAux table (versionOptions options) sourceIndex targetObject rounds aux budget
        found)
      (walkVersionAux table (versionOptions options') sourceIndex targetObject rounds aux budget'
        found) := by
  induction rounds generalizing aux budget budget' found with
  | zero => exact .pure ⟨rfl, hbudget⟩
  | succ rounds ih =>
      refine .bind (takeRecord_carries hbudget) fun left left' _ hleft => ?_
      refine .bind_same fun record _ => ?_
      refine .bind_eq (readVersionString_carries hbelow htable _) fun name _ => ?_
      exact .bind_same fun aux _ => ih aux hleft _

lemma walkVersionRequirements_carries (hbelow : options.Below options')
    (htable : m.Readable table.guestAddress.toNat table.size.toNat) (graph : Elf32DependencyGraph)
    (requester : Elf32LoadedDependencyObject) (sourceIndex : UInt16) (rounds : ℕ)
    (current : UInt32) (hbudget : budget.Below budget')
    (found : Option Elf32SymbolVersionRequirement) :
    Carries (GuestMemory.reads m) NoError FoundBelow
      (walkVersionRequirements graph requester table (versionOptions options) sourceIndex rounds
        current budget found)
      (walkVersionRequirements graph requester table (versionOptions options') sourceIndex rounds
        current budget' found) := by
  induction rounds generalizing current budget budget' found with
  | zero => exact .pure ⟨rfl, hbudget⟩
  | succ rounds ih =>
      refine .bind (takeRecord_carries hbudget) fun left left' _ hleft => ?_
      refine .bind_same fun record _ => ?_
      refine .bind_same fun _ _ => ?_
      refine .bind_eq (readVersionString_carries hbelow htable _) fun targetName _ => ?_
      refine .bind_same fun targetObject _ => .bind_same fun aux _ => ?_
      refine .bind (walkVersionAux_carries hbelow htable _ _ _ _ hleft _) ?_
      rintro ⟨found, left⟩ ⟨_, left'⟩ - ⟨rfl, hleft⟩
      exact .bind_same fun current _ => ih current hleft _

lemma findVersionRequirement_carries (hbelow : options.Below options')
    (htable : m.Readable table.guestAddress.toNat table.size.toNat) (graph : Elf32DependencyGraph)
    (requesterObject : ℕ) (requester : Elf32LoadedDependencyObject) (sourceIndex : UInt16) :
    Carries (GuestMemory.reads m) NoError Eq
      (findVersionRequirement graph requesterObject requester table (versionOptions options)
        sourceIndex)
      (findVersionRequirement graph requesterObject requester table (versionOptions options')
        sourceIndex) := by
  have hbudget := hbelow.walkBudget
  rw [findVersionRequirement, findVersionRequirement]
  cases requester.linkerMetadata.versionRequirementTable with
  | none =>
      cases requester.linkerMetadata.versionDefinitionTable with
      | none => exact .refl _
      | some definitions => exact walkVersionDefinitions_carries hbelow htable _ _ _ hbudget _
  | some requirements =>
      refine .bind (walkVersionRequirements_carries hbelow htable _ _ _ _ _ hbudget _) ?_
      rintro ⟨found, left⟩ ⟨_, left'⟩ - ⟨rfl, hleft⟩
      cases requester.linkerMetadata.versionDefinitionTable with
      | none => exact .refl _
      | some definitions => exact walkVersionDefinitions_carries hbelow htable _ _ _ hleft _

/-- The version that a reference asks for, under larger ceilings. -/
lemma resolveElf32SymbolVersionRequirement_carries (hbelow : options.Below options')
    {graph : Elf32DependencyGraph}
    (hstrings : ∀ object ∈ graph.objects, StringsReadable m object.linkerMetadata)
    (requesterObject : ℕ) (symbolIndex : UInt32) :
    Carries (GuestMemory.reads m) NoError Eq
      (resolveElf32SymbolVersionRequirement graph requesterObject symbolIndex
        (versionOptions options))
      (resolveElf32SymbolVersionRequirement graph requesterObject symbolIndex
        (versionOptions options')) := by
  refine .bind_same fun _ hinside => .bind_same fun _ _ => ?_
  rw [under_reject, refuse_ok_iff, Nat.not_le] at hinside
  have hrequester : StringsReadable m
      (graph.objects.getD requesterObject default).linkerMetadata :=
    hstrings _ (by rw [List.getD_eq_getElem _ _ hinside]; exact List.getElem_mem hinside)
  split
  · exact .refl _
  · refine .bind_same fun rawVersion _ => .ite (fun _ => .refl _) fun _ => ?_
    refine .bind_eq (checkWalk_carries hbelow _) fun table htable => ?_
    refine .bind_eq (findVersionRequirement_carries hbelow (checkWalk_readable hrequester htable)
      _ _ _ _) fun _ _ => .refl _

lemma expectedVersionIndex_carries (hbelow : options.Below options')
    {metadata : Elf32LinkerMetadata} (hstrings : StringsReadable m metadata)
    (requirement : Elf32SymbolVersionRequirement) :
    Carries (GuestMemory.reads m) NoError Eq
      (expectedVersionIndex metadata requirement (versionOptions options))
      (expectedVersionIndex metadata requirement (versionOptions options')) := by
  rw [expectedVersionIndex, expectedVersionIndex]
  split
  · exact .refl _
  · refine .bind_eq (checkWalk_carries hbelow _) fun table htable => ?_
    exact walkVersionDefinitions_carries hbelow (checkWalk_readable hstrings htable) _ _ _
      hbelow.walkBudget _

/-- A version that was compared is compared under larger ceilings. -/
lemma matchElf32SymbolVersion_carries (hbelow : options.Below options')
    {metadata : Elf32LinkerMetadata} (hstrings : StringsReadable m metadata)
    (symbolIndex : UInt32) (requirement : Option Elf32SymbolVersionRequirement) :
    Carries (GuestMemory.reads m) NoError Eq
      (matchElf32SymbolVersion metadata symbolIndex requirement (versionOptions options))
      (matchElf32SymbolVersion metadata symbolIndex requirement (versionOptions options')) := by
  refine .bind_same fun _ _ => ?_
  split
  · exact .refl _
  · refine .bind_same fun rawVersion _ => ?_
    split
    · exact .refl _
    · exact .bind_eq (expectedVersionIndex_carries hbelow hstrings _) fun _ _ => .refl _

end Versions

/-! ### One object -/

section Lookups

variable {query : LookupQuery}

lemma evaluateDefinition_carries (hbelow : query.options.Below options')
    (hstrings : StringsReadable m query.metadata) (symbolIndex : UInt32) (symbol : Elf32Symbol)
    (symbolName : ByteString) :
    Carries (GuestMemory.reads m) IsNotFound Eq
      (query.evaluateDefinition symbolIndex symbol symbolName)
      ({ query with options := options' }.evaluateDefinition symbolIndex symbol symbolName) := by
  refine .bind_same fun _ _ => .bind_same fun raw _ => ?_
  cases raw with
  | none => exact .refl _
  | some raw =>
      refine .bind_same fun _ _ => .bind_eq (.mapError ?_) fun matching _ => .refl _
      exact (matchElf32SymbolVersion_carries hbelow hstrings _ _).mono fun e h =>
        versionLookupError_ne _ h

lemma evaluateCandidate_carries (hbelow : query.options.Below options')
    (hstrings : StringsReadable m query.metadata)
    (htable : m.Readable query.stringTable.guestAddress.toNat query.stringTable.size.toNat)
    (symbolIndex : UInt32) :
    Carries (GuestMemory.reads m) IsNotFound Eq (query.evaluateCandidate symbolIndex)
      ({ query with options := options' }.evaluateCandidate symbolIndex) := by
  refine .bind_same fun _ _ => .bind_same fun symbol _ => ?_
  cases symbol with
  | none => exact .refl _
  | some symbol =>
      refine .bind_eq (.mapError ?_) fun symbolName _ => .ite (fun _ => .refl _) fun _ => ?_
      · exact (readElf32StringTableEntry_carries htable _ hbelow.maxNameBytes).mono fun e h =>
          nomatch h
      · exact .ite (fun _ => .refl _) fun _ => evaluateDefinition_carries hbelow hstrings _ _ _

lemma orElse_carries (hbelow : query.options.Below options')
    (hstrings : StringsReadable m query.metadata)
    (htable : m.Readable query.stringTable.guestAddress.toNat query.stringTable.size.toNat)
    (symbolIndex : UInt32) {next next' : GuestRead Elf32SymbolLookupFailure Elf32ResolvedSymbol}
    (hnext : Carries (GuestMemory.reads m) IsNotFound Eq next next') :
    Carries (GuestMemory.reads m) IsNotFound Eq (query.orElse symbolIndex next)
      ({ query with options := options' }.orElse symbolIndex next') := by
  refine .bind_eq (evaluateCandidate_carries hbelow hstrings htable _) fun candidate _ => ?_
  cases candidate with
  | some result => exact .refl _
  | none => exact hnext

lemma walkGnuChain_carries (hbelow : query.options.Below options')
    (hstrings : StringsReadable m query.metadata)
    (htable : m.Readable query.stringTable.guestAddress.toNat query.stringTable.size.toNat)
    (index : Elf32GnuHashIndex) (hash : UInt32) (rounds : ℕ) (symbolIndex : UInt32) :
    Carries (GuestMemory.reads m) IsNotFound Eq
      (query.walkGnuChain index hash rounds symbolIndex)
      ({ query with options := options' }.walkGnuChain index hash rounds symbolIndex) := by
  induction rounds generalizing symbolIndex with
  | zero => exact .refl _
  | succ rounds ih =>
      refine .bind_same fun chainHash _ => ?_
      have hnext : Carries (GuestMemory.reads m) IsNotFound Eq
          (if chainHash &&& 1 ≠ 0 then .fail { error := .symbolNotFound }
            else query.walkGnuChain index hash rounds (symbolIndex + 1))
          (if chainHash &&& 1 ≠ 0 then .fail { error := .symbolNotFound }
            else { query with options := options' }.walkGnuChain index hash rounds
              (symbolIndex + 1)) :=
        .ite (fun _ => .refl _) fun _ => ih (symbolIndex + 1)
      exact .ite (fun _ => orElse_carries hbelow hstrings htable _ hnext) fun _ => hnext

lemma walkSysvChain_carries (hbelow : query.options.Below options')
    (hstrings : StringsReadable m query.metadata)
    (htable : m.Readable query.stringTable.guestAddress.toNat query.stringTable.size.toNat)
    (index : Elf32SysvHashIndex) (hops : ℕ) (symbolIndex : UInt32) :
    Carries (GuestMemory.reads m) IsNotFound Eq (query.walkSysvChain index hops symbolIndex)
      ({ query with options := options' }.walkSysvChain index hops symbolIndex) := by
  induction hops generalizing symbolIndex with
  | zero => exact .refl _
  | succ hops ih =>
      refine .ite (fun _ => .refl _) fun _ => orElse_carries hbelow hstrings htable _ ?_
      exact .bind_same fun next _ => .bind_same fun _ _ => ih next

/-- A lookup in one object that ends in a definition or in a miss ends so under
larger ceilings. -/
lemma lookupElf32SymbolImpl_carries (hbelow : options.Below options') (loadBias : UInt32)
    {metadata : Elf32LinkerMetadata} (hstrings : StringsReadable m metadata)
    (index : Elf32SymbolIndex) (name : ByteString)
    (requirement : Option Elf32SymbolVersionRequirement) :
    Carries (GuestMemory.reads m) IsNotFound Eq
      (lookupElf32SymbolImpl loadBias metadata index name options requirement)
      (lookupElf32SymbolImpl loadBias metadata index name options' requirement) := by
  refine .reject_bind (by decide) (eq_zero_of_le_of_eq_zero hbelow.maxNameBytes) fun _ =>
    .bind_same fun _ _ => ?_
  split
  · rename_i stringTable symbolTable hstringTable _
    have htable := hstrings stringTable hstringTable
    refine .bind_same fun _ _ => ?_
    dsimp only
    split
    · refine .bind_same fun bloomWord _ => .bind_same fun _ _ => .bind_same fun symbolIndex _ => ?_
      refine .bind_same fun _ _ => .bind_same fun _ _ => ?_
      exact walkGnuChain_carries hbelow hstrings htable _ _ _ _
    · refine .bind_same fun symbolIndex _ => .bind_same fun _ _ => ?_
      exact walkSysvChain_carries hbelow hstrings htable _ _ _
    · exact .refl _
  · exact .refl _

end Lookups

/-! ### The graph -/

/-- A miss in the whole scope. -/
abbrev IsGraphMiss (failure : Elf32GraphSymbolLookupFailure) : Prop :=
  failure.error = .symbolNotFound

namespace GraphQuery

variable {query : GraphQuery}

/-- The own lookup of an object under larger ceilings. -/
lemma lookupObject_carries (hbelow : query.options.Below options') {objectIndex : ℕ}
    (hstrings : StringsReadable m (query.object objectIndex).linkerMetadata) :
    Carries (GuestMemory.reads m) IsGraphMiss Eq (query.lookupObject objectIndex)
      ({ query with options := options' }.lookupObject objectIndex) := by
  refine .ite (fun _ => .refl _) fun _ => ?_
  refine .bind_eq (.mapError ?_) fun index _ => ?_
  · exact (buildElf32SymbolIndex_carries hbelow _).mono fun e h => nomatch h
  · refine .attempt_bind (lookupElf32SymbolImpl_carries hbelow _ hstrings _ _ _) ?_
    intro failure q hfailure
    dsimp only
    rw [if_pos hfailure]
    exact .fail nofun q

lemma searchObject_carries (hbelow : query.options.Below options')
    (hstrings : ∀ object ∈ query.graph.objects, StringsReadable m object.linkerMetadata)
    (objectIndex : ℕ) (invalidError : Elf32GraphSymbolLookupError) (state : SearchState) :
    Carries (GuestMemory.reads m) IsGraphMiss Eq
      (query.searchObject objectIndex invalidError state)
      ({ query with options := options' }.searchObject objectIndex invalidError state) := by
  refine .bind_same fun _ hinside => .ite (fun _ => .refl _) fun _ => ?_
  rw [under_reject, refuse_ok_iff, Nat.not_le] at hinside
  refine .reject_bind nofun (le_trans hbelow.maxScopeObjects) fun _ => ?_
  refine .bind_eq (lookupObject_carries hbelow (hstrings _ ?_)) fun _ _ => .refl _
  rw [object, List.getD_eq_getElem _ _ hinside]
  exact List.getElem_mem hinside

lemma searchThen_carries (hbelow : query.options.Below options')
    (hstrings : ∀ object ∈ query.graph.objects, StringsReadable m object.linkerMetadata)
    (objectIndex : ℕ) (invalidError : Elf32GraphSymbolLookupError) (state : SearchState)
    {next next' : SearchState → GraphRead Elf32GraphResolvedSymbol}
    (hnext : ∀ state, Carries (GuestMemory.reads m) IsGraphMiss Eq (next state) (next' state)) :
    Carries (GuestMemory.reads m) IsGraphMiss Eq
      (query.searchThen objectIndex invalidError state next)
      ({ query with options := options' }.searchThen objectIndex invalidError state next') := by
  refine .bind_eq (searchObject_carries hbelow hstrings _ _ _) ?_
  rintro ⟨_ | result, state⟩ -
  · exact hnext state
  · exact .refl _

lemma searchScope_carries (hbelow : query.options.Below options')
    (hstrings : ∀ object ∈ query.graph.objects, StringsReadable m object.linkerMetadata)
    {next next' : SearchState → GraphRead Elf32GraphResolvedSymbol}
    (hnext : ∀ state, Carries (GuestMemory.reads m) IsGraphMiss Eq (next state) (next' state))
    (objects : List ℕ) (state : SearchState) :
    Carries (GuestMemory.reads m) IsGraphMiss Eq (query.searchScope next objects state)
      ({ query with options := options' }.searchScope next' objects state) := by
  induction objects generalizing state with
  | nil => exact hnext state
  | cons objectIndex objects ih => exact searchThen_carries hbelow hstrings _ _ _ ih

/-- The breadth-first loop, by induction on the rounds left. -/
lemma searchClosure_carries (hbelow : query.options.Below options')
    (hstrings : ∀ object ∈ query.graph.objects, StringsReadable m object.linkerMetadata)
    (rounds : ℕ) (pending : List ℕ) (state : SearchState) :
    Carries (GuestMemory.reads m) IsGraphMiss Eq (query.searchClosure rounds pending state)
      ({ query with options := options' }.searchClosure rounds pending state) := by
  induction rounds generalizing pending state with
  | zero => exact .refl _
  | succ rounds ih =>
      cases pending with
      | nil => exact .refl _
      | cons objectIndex pending =>
          refine searchThen_carries hbelow hstrings _ _ _ fun state => ?_
          refine .ite (fun _ => ih _ _) fun _ => ?_
          have hobject : ({ query with options := options' } : GraphQuery).object objectIndex
              = query.object objectIndex := rfl
          dsimp only
          rw [hobject]
          split
          · exact .refl _
          · exact ih _ _

end GraphQuery

/-- The search of the whole scope under larger ceilings. -/
lemma lookupElf32GraphSymbolImpl_carries (hbelow : options.Below options')
    {graph : Elf32DependencyGraph}
    (hstrings : ∀ object ∈ graph.objects, StringsReadable m object.linkerMetadata)
    (startObject : ℕ) (name : ByteString) (requirement : Option Elf32SymbolVersionRequirement)
    (globalScopeObjects : List ℕ) (requesterSymbolic : Bool) :
    Carries (GuestMemory.reads m) IsGraphMiss Eq
      (lookupElf32GraphSymbolImpl graph startObject name options requirement globalScopeObjects
        requesterSymbolic)
      (lookupElf32GraphSymbolImpl graph startObject name options' requirement globalScopeObjects
        requesterSymbolic) := by
  refine .reject_bind (by decide) (eq_zero_of_le_of_eq_zero hbelow.maxScopeObjects) fun _ => ?_
  refine .bind_same fun _ _ => .bind_same fun _ _ => ?_
  let query : GraphQuery := { graph, name, options, requirement }
  have hquery : query.options.Below options' := hbelow
  have hscope (state : GraphQuery.SearchState) := GraphQuery.searchScope_carries hquery hstrings
    (GraphQuery.searchClosure_carries hquery hstrings (GraphQuery.closureRounds graph)
      [startObject]) globalScopeObjects state
  exact .ite (fun _ => GraphQuery.searchThen_carries hquery hstrings _ _ _ hscope) fun _ =>
    hscope _

/-- **Ceilings never change an answer.**  In a memory in which every string table of
the graph may be read as a whole, a graph lookup that ends in a definition or in the
miss of the whole scope has the identical result under options with the same global
scope in which no ceiling is smaller. -/
theorem lookup_of_larger_ceilings (memory : MappedGuestMemory) (graph : Elf32DependencyGraph)
    (hstrings : ∀ object ∈ graph.objects, ∀ table, object.linkerMetadata.stringTable = some table →
      memory.Readable table.guestAddress.toNat table.size.toNat)
    (options options' : Elf32SymbolLookupOptions) (hbelow : options.Below options')
    (startObject : ℕ) (name : ByteString) :
    (IsDefinite ((lookupElf32GraphSymbol graph startObject name options).under
        (GuestMemory.reads memory))
      → (lookupElf32GraphSymbol graph startObject name options').under (GuestMemory.reads memory)
        = (lookupElf32GraphSymbol graph startObject name options).under
            (GuestMemory.reads memory))
    ∧ ∀ referenceSymbolIndex,
      IsDefinite ((lookupElf32GraphSymbolForReference graph startObject referenceSymbolIndex name
        options).under (GuestMemory.reads memory))
      → (lookupElf32GraphSymbolForReference graph startObject referenceSymbolIndex name
          options').under (GuestMemory.reads memory)
        = (lookupElf32GraphSymbolForReference graph startObject referenceSymbolIndex name
            options).under (GuestMemory.reads memory) := by
  constructor
  · intro hsettled
    exact (lookupElf32GraphSymbolImpl_carries hbelow hstrings _ _ _ _ _).under_eq hsettled
  · intro referenceSymbolIndex hsettled
    refine Carries.under_eq ?_ hsettled
    refine .reject_bind (by decide) (eq_zero_of_le_of_eq_zero hbelow.maxScopeObjects) fun _ => ?_
    refine .bind_same fun _ _ => .bind_eq (.mapError ?_) fun requirement _ => ?_
    · exact (resolveElf32SymbolVersionRequirement_carries hbelow hstrings _ _).mono fun e h =>
        nomatch h
    · rw [← hbelow.globalScopeObjects]
      exact lookupElf32GraphSymbolImpl_carries hbelow hstrings _ _ _ _ _

theorem lookup_of_larger_ceilings_found :
    ((lookupElf32GraphSymbol symbolLinkMap.graph 0 [102] { lookupF with maxNameBytes := 1 }).under
        (GuestMemory.reads symbolMemory)).map (·.symbol.guestValue) = .ok 0x10
      ∧ ((lookupElf32GraphSymbol symbolLinkMap.graph 0 [102] lookupF).under
        (GuestMemory.reads symbolMemory)).map (·.symbol.guestValue) = .ok 0x10 := by
  have hfound : ((lookupElf32GraphSymbol symbolLinkMap.graph 0 [102]
      { lookupF with maxNameBytes := 1 }).under (GuestMemory.reads symbolMemory)).map
        (·.symbol.guestValue) = .ok 0x10 := by
    decide +kernel
  have hstrings : ∀ object ∈ symbolLinkMap.graph.objects, ∀ table,
      object.linkerMetadata.stringTable = some table →
        symbolMemory.Readable table.guestAddress.toNat table.size.toNat := by
    intro object hobject table htable
    obtain rfl := List.mem_singleton.mp hobject
    obtain rfl := Option.some.inj htable
    have hread : GuestMemory.read symbolMemory 0x1000 3 = some [0, 102, 0] := by decide +kernel
    exact (MappedGuestMemory.read_eq_some_iff_readable.mp hread).1
  have hbelow : Elf32SymbolLookupOptions.Below { lookupF with maxNameBytes := 1 } lookupF := by
    constructor <;> decide
  have h := (lookup_of_larger_ceilings symbolMemory symbolLinkMap.graph hstrings _ _ hbelow 0
    [102]).1 (by
      intro failure hfailure
      rw [hfailure] at hfound
      cases hfound)
  exact ⟨hfound, (congrArg _ h).trans hfound⟩

end LibA32Android
