/-
The number of symbols that a GNU hash table gives.

* `GnuHashTable`: a well-formed table in memory over `n` symbols;
* `exists_chainEnds`: every group ends, and `chainEnds_of_largest`: the one of the
  largest bucket ends at the last symbol;
* `buildGnuHash_of_table`: the build counts `n` symbols, with a SysV table or without;
* `gnu_symbolCount_iff`: it does so unless the table has no hashed symbol and ends
  with the address space, in which case the address of its empty chains is not one.
-/
import LibA32Android.Elf.BuiltIndex

namespace LibA32Android

open Foundations QueryProgram

/-- A well-formed GNU hash table at an address: the symbols from `symoffset` to `n - 1`
stand in the order of their buckets, a bucket holds its first symbol or 0, and bit 0 of
a chain word says that the group of the symbol ends. -/
structure GnuHashTable (m : MappedGuestMemory) (hashAddress : UInt32) (gnu : Elf32GnuHashIndex)
    (n : ℕ) (names : ℕ → ByteString) : Prop where
  header : indexedWord (GuestMemory.reads m) hashAddress 0 = some gnu.bucketCount
    ∧ indexedWord (GuestMemory.reads m) hashAddress 1 = some gnu.symbolOffset
    ∧ indexedWord (GuestMemory.reads m) hashAddress 2 = some gnu.bloomWordCount
    ∧ indexedWord (GuestMemory.reads m) hashAddress 3 = some gnu.bloomShift
  bucketCount_ne : gnu.bucketCount ≠ 0
  symbolOffset_ne : gnu.symbolOffset ≠ 0
  bloomWords : ∃ k, gnu.bloomWordCount.toNat = 2 ^ k
  bloomShift_lt : gnu.bloomShift < 32
  symbolOffset_le : gnu.symbolOffset.toNat ≤ n
  bloomAddress : gnu.bloomGuestAddress.toNat = hashAddress.toNat + 16
  bucketsAddress : gnu.bucketsGuestAddress.toNat
    = gnu.bloomGuestAddress.toNat + gnu.bloomWordCount.toNat * 4
  -- behind buckets that end with the address space there is no address
  chainsAddress : gnu.chainsGuestAddress.toNat
    = (gnu.bucketsGuestAddress.toNat + gnu.bucketCount.toNat * 4) % 2 ^ 32
  readable : m.Readable hashAddress.toNat (16 + gnu.bloomWordCount.toNat * 4
    + gnu.bucketCount.toNat * 4 + (n - gnu.symbolOffset.toNat) * 4)
  grouped : ∀ j < n, ∀ i ≤ j, gnu.symbolOffset.toNat ≤ i →
    gnu.bucket (names i) ≤ gnu.bucket (names j)
  buckets : ∀ b < gnu.bucketCount.toNat, indexedWord (GuestMemory.reads m) gnu.bucketsGuestAddress b
    = some (UInt32.ofNat (gnu.firstOf n names b))
  chains : ∀ i < n, gnu.symbolOffset.toNat ≤ i → ∃ word,
    gnu.chainWord (GuestMemory.reads m) i = some word
    ∧ (word &&& 1 ≠ 0 ↔ gnu.endsGroup n names i)

namespace GnuHashTable

variable {m : MappedGuestMemory} {hashAddress : UInt32} {gnu : Elf32GnuHashIndex} {n : ℕ}
  {names : ℕ → ByteString}

/-! ### Groups -/

lemma symbolOffset_pos (h : GnuHashTable m hashAddress gnu n names) :
    0 < gnu.symbolOffset.toNat :=
  Nat.pos_of_ne_zero fun h0 => h.symbolOffset_ne (UInt32.toNat_inj.mp h0)

lemma bloomWordCount_ne (h : GnuHashTable m hashAddress gnu n names) : gnu.bloomWordCount ≠ 0 := by
  obtain ⟨k, hk⟩ := h.bloomWords
  intro h0
  rw [h0] at hk
  exact absurd hk.symm (Nat.two_pow_pos k).ne'

lemma bucket_lt (h : GnuHashTable m hashAddress gnu n names) (name : ByteString) :
    gnu.bucket name < gnu.bucketCount.toNat :=
  Nat.mod_lt _ (Nat.pos_of_ne_zero fun h0 => h.bucketCount_ne (UInt32.toNat_inj.mp h0))

/-- The group of a symbol is not empty. -/
lemma firstOf_ne (h : GnuHashTable m hashAddress gnu n names) {i : ℕ} (hi : i < n)
    (hle : gnu.symbolOffset.toNat ≤ i) : gnu.firstOf n names (gnu.bucket (names i)) ≠ 0 :=
  fun h0 => GnuWellFormed.bucket_ne_of_firstOf h.symbolOffset_ne h0 hi hle rfl

/-- Every chain ends. -/
lemma exists_chainEnds (h : GnuHashTable m hashAddress gnu n names) {s : ℕ} (hs : s < n)
    (hle : gnu.symbolOffset.toNat ≤ s) : ∃ t < n, ChainEnds (GuestMemory.reads m) gnu s t := by
  induction hleft : n - s generalizing s with
  | zero => omega
  | succ left ih =>
      obtain ⟨word, hword, hbit⟩ := h.chains s hs hle
      by_cases hends : gnu.endsGroup n names s
      · exact ⟨s, hs, (chainEnds_iff hword).mpr (by rw [if_pos (hbit.mpr hends)])⟩
      · have hnext : s + 1 < n := by
          rw [Elf32GnuHashIndex.endsGroup, decide_eq_true_eq] at hends
          omega
        obtain ⟨t, ht, hchain⟩ := ih hnext (by omega) (by omega)
        refine ⟨t, ht, (chainEnds_iff hword).mpr ?_⟩
        rwa [if_neg fun hset => hends (hbit.mp hset)]

/-- The chain of the largest bucket ends at the last symbol: behind the end of another
chain there is a larger bucket. -/
lemma chainEnds_of_largest (h : GnuHashTable m hashAddress gnu n names) {s : ℕ} (hs : s < n)
    (hle : gnu.symbolOffset.toNat ≤ s)
    (hlargest : ∀ b < gnu.bucketCount.toNat, gnu.firstOf n names b ≤ s) :
    ∃ t, t + 1 = n ∧ ChainEnds (GuestMemory.reads m) gnu s t := by
  obtain ⟨t, ht, hchain⟩ := h.exists_chainEnds hs hle
  refine ⟨t, ?_, hchain⟩
  by_contra hlast
  have hst := hchain.le
  have hnext : t + 1 < n := by omega
  -- the symbol behind the chain is in a later group
  obtain ⟨word, hword, hbit⟩ := h.chains t ht (by omega)
  obtain ⟨word', hword', hset⟩ := hchain.last
  obtain rfl : word' = word := Option.some.inj (hword'.symm.trans hword)
  have hends := hbit.mp hset
  rw [Elf32GnuHashIndex.endsGroup, decide_eq_true_eq] at hends
  have hbehind := h.grouped (t + 1) hnext t (by omega) (by omega)
  have hbucket := hends.resolve_left hlast
  -- whose first symbol is not behind `s`
  obtain ⟨hoffset, -, hfirst, -⟩ := GnuWellFormed.firstOf_spec (h.firstOf_ne hnext (by omega))
  have hbefore := h.grouped t ht _
    ((hlargest _ (h.bucket_lt (names (t + 1)))).trans hst) hoffset
  rw [hfirst] at hbefore
  omega

/-! ### The build -/

variable {options : Elf32SymbolLookupOptions}

/-- The ceilings are at least as large as the table. -/
structure Within (options : Elf32SymbolLookupOptions) (gnu : Elf32GnuHashIndex) (n : ℕ) : Prop where
  symbols : n ≤ options.maxSymbols.toNat
  buckets : gnu.bucketCount ≤ options.maxHashBuckets
  bloomWords : gnu.bloomWordCount ≤ options.maxGnuBloomWords

/-- The header passes when there is an address behind the buckets. -/
lemma gnuHeader (h : GnuHashTable m hashAddress gnu n names) (hwithin : Within options gnu n)
    (hend : gnu.bucketsGuestAddress.toNat + gnu.bucketCount.toNat * 4 < 2 ^ 32) :
    GnuHeader (GuestMemory.reads m) hashAddress options gnu where
  bucketCount := h.header.1
  symbolOffset := h.header.2.1
  bloomWordCount := h.header.2.2.1
  bloomShift := h.header.2.2.2
  valid := by
    obtain ⟨k, hk⟩ := h.bloomWords
    have hpower : gnu.bloomWordCount &&& (gnu.bloomWordCount - 1) = 0 := by
      rw [← UInt32.toNat_inj, toNat_and_sub_one hk, Nat.mod_self]
      rfl
    rintro (h0 | h0 | h0 | h0)
    · exact h.bucketCount_ne h0
    · exact h.symbolOffset_ne h0
    · exact h0 ⟨h.bloomWordCount_ne, hpower⟩
    · exact UInt32.not_le.mpr h.bloomShift_lt h0
  limits := by
    refine ⟨?_, UInt32.not_lt.mpr ?_⟩
    · rintro (hlt | hlt)
      · exact UInt32.not_lt.mpr hwithin.buckets hlt
      · exact UInt32.not_lt.mpr hwithin.bloomWords hlt
    · exact UInt32.le_iff_toNat_le.mpr (h.symbolOffset_le.trans hwithin.symbols)
  bloomAddress := h.bloomAddress
  bucketsAddress := h.bucketsAddress
  chainsAddress := by rw [h.chainsAddress, Nat.mod_eq_of_lt hend]
  readable := readableTable_true_iff.mpr (h.readable.sub le_rfl (by omega))

/-- The first symbol of a group as a word. -/
lemma toNat_firstOf (hwithin : Within options gnu n) (b : ℕ) :
    (UInt32.ofNat (gnu.firstOf n names b)).toNat = gnu.firstOf n names b := by
  have hsymbols := hwithin.symbols
  have hlimit := options.maxSymbols.toNat_lt
  by_cases hfirst : gnu.firstOf n names b = 0
  · rw [hfirst]
    rfl
  · obtain ⟨-, hlt, -⟩ := GnuWellFormed.firstOf_spec hfirst
    exact UInt32.toNat_ofNat_of_lt' (show gnu.firstOf n names b < 2 ^ 32 by omega)

/-- A bucket holds a symbol that the checks let pass, or 0. -/
lemma bucketOk (hwithin : Within options gnu n) {sysvSymbolCount : Option UInt32}
    (hsysv : ∀ count ∈ sysvSymbolCount, count.toNat = n) (b : ℕ) :
    GnuBucketOk gnu options sysvSymbolCount (UInt32.ofNat (gnu.firstOf n names b)) := by
  intro hne
  have hfirst : gnu.firstOf n names b ≠ 0 := fun h0 => hne (by rw [h0]; rfl)
  obtain ⟨hle, hlt, -⟩ := GnuWellFormed.firstOf_spec hfirst
  have hsymbols := hwithin.symbols
  simp only [UInt32.le_iff_toNat_le, UInt32.lt_iff_toNat_lt, toNat_firstOf hwithin]
  refine ⟨hle, by omega, fun count hcount => ?_⟩
  rw [hsysv count hcount]
  exact hlt

/-- **The bucket loop** finds the largest bucket. -/
lemma exists_largest (h : GnuHashTable m hashAddress gnu n names)
    (hwithin : Within options gnu n) {sysvSymbolCount : Option UInt32}
    (hsysv : ∀ count ∈ sysvSymbolCount, count.toNat = n) :
    ∃ maximumBucket, ((List.range gnu.bucketCount.toNat).foldlM
        (checkGnuBucket gnu options sysvSymbolCount) 0).under (GuestMemory.reads m)
          = .ok maximumBucket
      ∧ (∀ b < gnu.bucketCount.toNat, gnu.firstOf n names b ≤ maximumBucket.toNat)
      ∧ (maximumBucket ≠ 0 → ∃ b, maximumBucket.toNat = gnu.firstOf n names b) := by
  have hpasses : ∃ maximumBucket, ((List.range gnu.bucketCount.toNat).foldlM
      (checkGnuBucket gnu options sysvSymbolCount) 0).under (GuestMemory.reads m)
        = .ok maximumBucket := by
    rw [under_foldlM]
    refine foldlM_ok_of_forall (fun maximumBucket b hb => ?_) 0
    rw [List.mem_range] at hb
    exact ⟨_, (checkGnuBucket_ok_iff hb).mpr ⟨_, h.buckets b hb, bucketOk hwithin hsysv b, rfl⟩⟩
  obtain ⟨maximumBucket, hloop⟩ := hpasses
  have hseen := bucketsSeen hloop
  refine ⟨maximumBucket, hloop, fun b hb => ?_, fun hne => ?_⟩
  · obtain ⟨word, hword, -, hle⟩ := hseen.words b (List.mem_range.mpr hb)
    obtain rfl : UInt32.ofNat (gnu.firstOf n names b) = word :=
      Option.some.inj ((h.buckets b hb).symm.trans hword)
    rwa [UInt32.le_iff_toNat_le, toNat_firstOf hwithin] at hle
  · obtain ⟨b, hb, hattained⟩ := hseen.attained hne
    refine ⟨b, ?_⟩
    obtain rfl : UInt32.ofNat (gnu.firstOf n names b) = maximumBucket :=
      Option.some.inj ((h.buckets b (List.mem_range.mp hb)).symm.trans hattained)
    exact toNat_firstOf hwithin b

/-- The checks against the number of symbols that a SysV table gives. -/
lemma checkGnuChains_of_table (h : GnuHashTable m hashAddress gnu n names)
    (hwithin : Within options gnu n)
    (hend : gnu.bucketsGuestAddress.toNat + gnu.bucketCount.toNat * 4 < 2 ^ 32)
    {count : UInt32} (hcount : count.toNat = n) :
    (checkGnuChains gnu count).under (GuestMemory.reads m) = .ok () := by
  refine checkGnuChains_ok_iff.mpr ⟨?_, ?_, fun b hb => ⟨_, h.buckets b hb, fun hne => ?_⟩⟩
  · rw [UInt32.le_iff_toNat_le, hcount]
    exact h.symbolOffset_le
  · have hreadable : m.Readable gnu.chainsGuestAddress.toNat
        ((count.toNat - gnu.symbolOffset.toNat) * 4) := by
      refine h.readable.sub ?_ ?_
      · rw [h.chainsAddress, Nat.mod_eq_of_lt hend, h.bucketsAddress, h.bloomAddress]
        omega
      · rw [h.chainsAddress, Nat.mod_eq_of_lt hend, h.bucketsAddress, h.bloomAddress, hcount]
        omega
    rw [checkTable, under_bind, under_reject, refuse_neg, ok_bind, under_bind,
      readableTable_true_iff.mpr hreadable, ok_bind, under_reject]
    · rfl
    · rw [Bool.not_eq_true, rangeFits_iff]
      exact hreadable.1
  · obtain ⟨hle, -, -⟩ := bucketOk hwithin (fun _ h => absurd h (Option.not_mem_none _)) b hne
    obtain ⟨hoffset, hlt, -⟩ := GnuWellFormed.firstOf_spec fun h0 => hne (by rw [h0]; rfl)
    obtain ⟨t, ht, hchain⟩ := h.exists_chainEnds hlt hoffset
    refine (checkGnuChain_word_iff hle ?_).mpr ⟨t, hcount ▸ ht, ?_⟩
    · rw [UInt32.le_iff_toNat_le, toNat_firstOf hwithin, hcount]
      exact hlt.le
    · rw [toNat_firstOf hwithin]
      exact hchain

/-- **The build counts the symbols of the table.** -/
lemma buildGnuHash_of_table (h : GnuHashTable m hashAddress gnu n names)
    (hwithin : Within options gnu n)
    (hend : gnu.bucketsGuestAddress.toNat + gnu.bucketCount.toNat * 4 < 2 ^ 32)
    {sysvSymbolCount : Option UInt32} (hsysv : ∀ count ∈ sysvSymbolCount, count.toNat = n) :
    (buildGnuHash hashAddress options sysvSymbolCount).under (GuestMemory.reads m)
      = .ok (gnu, UInt32.ofNat n) := by
  obtain ⟨maximumBucket, hloop, hlargest, hattained⟩ := h.exists_largest hwithin hsysv
  rw [buildGnuHash, under_bind, readGnuHeader_ok_iff.mpr (h.gnuHeader hwithin hend), ok_bind,
    under_bind, hloop, ok_bind]
  have hsymbols := hwithin.symbols
  have hlimit := options.maxSymbols.toNat_lt
  cases sysvSymbolCount with
  | some count =>
      have hcount := hsysv count rfl
      rw [under_bind, h.checkGnuChains_of_table hwithin hend hcount, ok_bind, under_pure, ← hcount,
        UInt32.ofNat_toNat]
  | none =>
      rw [under_ite]
      split
      · -- no group, so no symbol behind `symoffset`
        rename_i hzero
        have hn : gnu.symbolOffset.toNat = n := by
          by_contra hne
          have hle := h.symbolOffset_le
          have hlt : gnu.symbolOffset.toNat < n := by omega
          have hfirst := hlargest _ (h.bucket_lt (names gnu.symbolOffset.toNat))
          rw [hzero] at hfirst
          exact h.firstOf_ne hlt le_rfl (Nat.le_zero.mp hfirst)
        rw [under_pure, ← hn, UInt32.ofNat_toNat]
      · rename_i hne
        obtain ⟨b, hb⟩ := hattained hne
        have hfirst : gnu.firstOf n names b ≠ 0 := by
          rw [← hb]
          exact fun h0 => hne (UInt32.toNat_inj.mp h0)
        obtain ⟨hle, hlt, -⟩ := GnuWellFormed.firstOf_spec hfirst
        rw [← hb] at hle hlt
        obtain ⟨t, ht, hchain⟩ := h.chainEnds_of_largest hlt hle hlargest
        have hfind := (findGnuSymbolCount_word_iff (UInt32.le_iff_toNat_le.mpr hle)
          (UInt32.le_iff_toNat_le.mpr (by omega : maximumBucket.toNat ≤ options.maxSymbols.toNat))).mpr
          ⟨t, by omega, hchain, congrArg UInt32.ofNat ht⟩
        rw [under_bind, hfind, ok_bind, under_pure]

/-- The rest of the build, once the hash tables have given `n` symbols. -/
lemma build_of_hashTables (h : GnuHashTable m hashAddress gnu n names)
    (hwithin : Within options gnu n) {metadata : Elf32LinkerMetadata}
    {symbolTable : Elf32SymbolTableMetadata} (hstrings : metadata.stringTable.isSome)
    (hsymbols : metadata.symbolTable = some symbolTable)
    (hreadable : m.Readable symbolTable.guestAddress.toNat (n * 16))
    (hgnu : metadata.gnuHashTable = some ⟨hashAddress⟩) {index : Elf32SymbolIndex}
    (hcount : index.symbolCount.toNat = n)
    (hbuild : (buildHashTables metadata options).under (GuestMemory.reads m) = .ok index) :
    (buildElf32SymbolIndex metadata options).under (GuestMemory.reads m) = .ok index := by
  have hpos := h.symbolOffset_pos
  have hle := h.symbolOffset_le
  have hne : index.symbolCount ≠ 0 := by
    rw [ne_eq, ← UInt32.toNat_inj, hcount]
    change n ≠ 0
    omega
  have hlimit : index.symbolCount ≤ options.maxSymbols := by
    rw [UInt32.le_iff_toNat_le, hcount]
    exact hwithin.symbols
  refine buildElf32SymbolIndex_ok_iff.mpr ⟨?_, hstrings, symbolTable, hsymbols, by simp [hgnu],
    hbuild, hne, hlimit, hcount ▸ hreadable⟩
  rintro (h0 | h0 | h0)
  · exact hne (UInt32.le_zero_iff.mp (h0 ▸ hlimit))
  · exact h.bucketCount_ne (UInt32.le_zero_iff.mp (h0 ▸ hwithin.buckets))
  · exact h.bloomWordCount_ne (UInt32.le_zero_iff.mp (h0 ▸ hwithin.bloomWords))

/-- An accepted build has computed the address behind the buckets. -/
lemma behind_lt_of_build (h : GnuHashTable m hashAddress gnu n names)
    {metadata : Elf32LinkerMetadata} (hgnu : metadata.gnuHashTable = some ⟨hashAddress⟩)
    {index : Elf32SymbolIndex}
    (hbuild : (buildElf32SymbolIndex metadata options).under (GuestMemory.reads m) = .ok index) :
    hashAddress.toNat + (16 + gnu.bloomWordCount.toNat * 4 + gnu.bucketCount.toNat * 4)
      < 2 ^ 32 := by
  obtain ⟨-, -, -, -, -, htables, -⟩ := buildElf32SymbolIndex_ok_iff.mp hbuild
  obtain ⟨-, hbuilt⟩ := buildHashTables_ok_iff.mp htables
  cases hindex : index.gnuHash with
  | none =>
      rw [hindex] at hbuilt
      exact absurd (hgnu.symm.trans hbuilt.1) (by simp)
  | some gnu' =>
      rw [hindex] at hbuilt
      obtain ⟨table, htable', hbuilt⟩ := hbuilt
      obtain rfl : table = ⟨hashAddress⟩ := Option.some.inj (htable'.symm.trans hgnu)
      have hheader : GnuHeader (GuestMemory.reads m) hashAddress options gnu' :=
        (buildGnuHash_ok hbuilt).1
      have hbuckets : gnu.bucketCount = gnu'.bucketCount :=
        Option.some.inj (h.header.1.symm.trans hheader.bucketCount)
      have hbloom : gnu.bloomWordCount = gnu'.bloomWordCount :=
        Option.some.inj (h.header.2.2.1.symm.trans hheader.bloomWordCount)
      have hchains := hheader.chainsAddress
      have hlt := gnu'.chainsGuestAddress.toNat_lt
      rw [hheader.bucketsAddress, hheader.bloomAddress] at hchains
      rw [hbuckets, hbloom]
      omega

/-- With an address behind the buckets the build counts `n` symbols, whether there is a
SysV table of `n` symbols besides or none. -/
lemma counts_of_behind_lt (h : GnuHashTable m hashAddress gnu n names)
    (hwithin : Within options gnu n) {metadata : Elf32LinkerMetadata}
    {symbolTable : Elf32SymbolTableMetadata} (hstrings : metadata.stringTable.isSome)
    (hsymbols : metadata.symbolTable = some symbolTable)
    (hreadable : m.Readable symbolTable.guestAddress.toNat (n * 16))
    (hgnu : metadata.gnuHashTable = some ⟨hashAddress⟩)
    (hend : hashAddress.toNat + (16 + gnu.bloomWordCount.toNat * 4 + gnu.bucketCount.toNat * 4)
      < 2 ^ 32)
    {sysvHash : Option Elf32SysvHashIndex}
    (hsysv : SysvBuilt (GuestMemory.reads m) metadata options sysvHash)
    (hchain : ∀ sysv ∈ sysvHash, sysv.chainCount.toNat = n) :
    ∃ index, (buildElf32SymbolIndex metadata options).under (GuestMemory.reads m) = .ok index
      ∧ index.symbolCount.toNat = n := by
  have hbehind : gnu.bucketsGuestAddress.toNat + gnu.bucketCount.toNat * 4 < 2 ^ 32 := by
    rw [h.bucketsAddress, h.bloomAddress]
    omega
  have hsize : (UInt32.ofNat n).toNat = n := by
    have hlimit := options.maxSymbols.toNat_lt
    have hcount := hwithin.symbols
    exact UInt32.toNat_ofNat_of_lt' (show n < 2 ^ 32 by omega)
  refine ⟨⟨UInt32.ofNat n, sysvHash, some gnu⟩, ?_, hsize⟩
  refine h.build_of_hashTables hwithin hstrings hsymbols hreadable hgnu hsize ?_
  refine buildHashTables_ok_iff.mpr ⟨hsysv, ⟨hashAddress⟩, hgnu, ?_⟩
  refine h.buildGnuHash_of_table hwithin hbehind fun count hcount => ?_
  obtain ⟨sysv, hmem, rfl⟩ := Option.map_eq_some_iff.mp hcount
  exact hchain sysv hmem

end GnuHashTable

/-- **The number of symbols of a GNU table is the true one** exactly when there is an
address behind its buckets: on a well-formed table of `n` symbols in readable memory,
with ceilings at least as large, the build with the GNU table alone counts `n`, and so
does the build with a SysV table of `n` symbols besides. -/
theorem gnu_symbolCount_iff {m : MappedGuestMemory} {hashAddress : UInt32}
    {gnu : Elf32GnuHashIndex} {n : ℕ} {names : ℕ → ByteString}
    (htable : GnuHashTable m hashAddress gnu n names) {options : Elf32SymbolLookupOptions}
    (hwithin : GnuHashTable.Within options gnu n) {metadata : Elf32LinkerMetadata}
    (hgnu : metadata.gnuHashTable = some ⟨hashAddress⟩) (hstrings : metadata.stringTable.isSome)
    {symbolTable : Elf32SymbolTableMetadata} (hsymbols : metadata.symbolTable = some symbolTable)
    (hreadable : m.Readable symbolTable.guestAddress.toNat (n * 16)) :
    let Counts := fun metadata : Elf32LinkerMetadata => ∃ index,
      (buildElf32SymbolIndex metadata options).under (GuestMemory.reads m) = .ok index
        ∧ index.symbolCount.toNat = n
    (Counts { metadata with sysvHashTable := none }
      ∧ ∀ sysvTable, Counts { metadata with sysvHashTable := some sysvTable, gnuHashTable := none } →
        Counts { metadata with sysvHashTable := some sysvTable })
    ↔ hashAddress.toNat + (16 + gnu.bloomWordCount.toNat * 4 + gnu.bucketCount.toNat * 4)
        < 2 ^ 32 := by
  intro Counts
  constructor
  · rintro ⟨⟨index, hbuild, -⟩, -⟩
    exact htable.behind_lt_of_build (by exact hgnu) hbuild
  · intro hend
    constructor
    · have hnone : SysvBuilt (GuestMemory.reads m) { metadata with sysvHashTable := none } options
          none := rfl
      exact htable.counts_of_behind_lt hwithin (by exact hstrings) (by exact hsymbols) hreadable
        (by exact hgnu) hend hnone fun sysv h => absurd h (Option.not_mem_none sysv)
    · -- what the SysV table gave alone it gives here
      rintro sysvTable ⟨index, hbuild, hcount⟩
      obtain ⟨-, -, -, -, -, htables, -⟩ := buildElf32SymbolIndex_ok_iff.mp hbuild
      have hchain (sysv : Elf32SysvHashIndex) (hmem : sysv ∈ index.sysvHash) :
          sysv.chainCount.toNat = n := by
        rw [((buildHashTables_ok htables).2 sysv hmem).2]
        exact hcount
      have hsysv := (buildHashTables_ok_iff.mp htables).1
      refine htable.counts_of_behind_lt hwithin (by exact hstrings) (by exact hsymbols) hreadable
        (by exact hgnu) hend ?_ hchain
      cases hindex : index.sysvHash <;> rw [hindex] at hsysv <;> exact hsysv

/-! ### Tables at the end of the address space and elsewhere -/

/-- A GNU table without hashed symbols whose one bucket is the last word of the address
space. -/
def endMemory : MappedGuestMemory :=
  (GuestMemory.write (vacantMemory.map 0xfffff000 4096 (.read ||| .write)).2 0xffffffe8
    (encodeU32Le 1 ++ encodeU32Le 1 ++ encodeU32Le 1 ++ encodeU32Le 0
      ++ encodeU32Le 0 ++ encodeU32Le 0)).2

def endGnu : Elf32GnuHashIndex where
  bucketCount := 1
  symbolOffset := 1
  bloomWordCount := 1
  bloomShift := 0
  bloomGuestAddress := 0xfffffff8
  bucketsGuestAddress := 0xfffffffc
  chainsGuestAddress := 0

def endMetadata : Elf32LinkerMetadata where
  stringTable := some ⟨0xfffff000, 1⟩
  symbolTable := some ⟨0xfffff000, 16⟩
  gnuHashTable := some ⟨0xffffffe8⟩

theorem gnu_symbolCount_end :
    GnuHashTable endMemory 0xffffffe8 endGnu 1 (fun _ => [])
      ∧ GnuHashTable.Within collidingQuery.options endGnu 1
      ∧ endMemory.Readable 0xfffff000 16
      ∧ (buildElf32SymbolIndex endMetadata collidingQuery.options).under
          (GuestMemory.reads endMemory) = .error .hashRangeOverflow := by
  have hread : GuestMemory.read endMemory 0xffffffe8 24 = some (encodeU32Le 1 ++ encodeU32Le 1
      ++ encodeU32Le 1 ++ encodeU32Le 0 ++ encodeU32Le 0 ++ encodeU32Le 0) := by decide +kernel
  have hsymbols : GuestMemory.read endMemory 0xfffff000 16 = some (List.replicate 16 0) := by
    decide +kernel
  refine ⟨?_, ⟨by decide, by decide, by decide⟩,
    (MappedGuestMemory.read_eq_some_iff_readable.mp hsymbols).1, by decide +kernel⟩
  exact
    { header := by decide +kernel
      bucketCount_ne := by decide
      symbolOffset_ne := by decide
      bloomWords := ⟨0, rfl⟩
      bloomShift_lt := by decide
      symbolOffset_le := by decide
      bloomAddress := by decide
      bucketsAddress := by decide
      chainsAddress := by decide
      readable := (MappedGuestMemory.read_eq_some_iff_readable.mp hread).1
      grouped := by decide
      buckets := by decide +kernel
      chains := fun i hi hle => absurd hle (Nat.not_le.mpr hi) }

/-- A GNU table with two buckets: one symbol in the first, two in the second. -/
def twoGroupMemory : MappedGuestMemory :=
  (GuestMemory.write (vacantMemory.map 0x1000 4096 (.read ||| .write)).2 0x1040
    (encodeU32Le 2 ++ encodeU32Le 1 ++ encodeU32Le 1 ++ encodeU32Le 5 ++ encodeU32Le 0xffffffff
      ++ encodeU32Le 1 ++ encodeU32Le 2
      ++ encodeU32Le 177671 ++ encodeU32Le 177670 ++ encodeU32Le 177673)).2

def twoGroupGnu : Elf32GnuHashIndex where
  bucketCount := 2
  symbolOffset := 1
  bloomWordCount := 1
  bloomShift := 5
  bloomGuestAddress := 0x1050
  bucketsGuestAddress := 0x1054
  chainsGuestAddress := 0x105c

def twoGroupMetadata : Elf32LinkerMetadata where
  stringTable := some ⟨0x1000, 1⟩
  symbolTable := some ⟨0x1000, 16⟩
  gnuHashTable := some ⟨0x1040⟩

def twoGroupNames (i : ℕ) : ByteString := [[], [97], [98], [100]].getD i []

theorem gnu_symbolCount_twoGroups : ∃ index,
    (buildElf32SymbolIndex twoGroupMetadata collidingQuery.options).under
      (GuestMemory.reads twoGroupMemory) = .ok index ∧ index.symbolCount.toNat = 4 := by
  have hread : (GuestMemory.read twoGroupMemory 0x1040 40).isSome := by decide +kernel
  have hsymbols : (GuestMemory.read twoGroupMemory 0x1000 64).isSome := by decide +kernel
  obtain ⟨bytes, hread⟩ := Option.isSome_iff_exists.mp hread
  obtain ⟨bytes', hsymbols⟩ := Option.isSome_iff_exists.mp hsymbols
  have htable : GnuHashTable twoGroupMemory 0x1040 twoGroupGnu 4 twoGroupNames :=
    { header := by decide +kernel
      bucketCount_ne := by decide
      symbolOffset_ne := by decide
      bloomWords := ⟨0, rfl⟩
      bloomShift_lt := by decide
      symbolOffset_le := by decide
      bloomAddress := by decide
      bucketsAddress := by decide
      chainsAddress := by decide
      readable := (MappedGuestMemory.read_eq_some_iff_readable.mp hread).1
      grouped := by decide +kernel
      buckets := by decide +kernel
      chains := by
        intro i hi hle
        have hle : 1 ≤ i := hle
        interval_cases i
        · exact ⟨177671, by decide +kernel, by decide +kernel⟩
        · exact ⟨177670, by decide +kernel, by decide +kernel⟩
        · exact ⟨177673, by decide +kernel, by decide +kernel⟩ }
  have hwithin : GnuHashTable.Within collidingQuery.options twoGroupGnu 4 :=
    ⟨by decide, by decide, by decide⟩
  have hgnu : twoGroupMetadata.gnuHashTable = some ⟨0x1040⟩ := rfl
  exact ((gnu_symbolCount_iff htable hwithin hgnu rfl rfl
    (MappedGuestMemory.read_eq_some_iff_readable.mp hsymbols).1).mpr (by decide)).1

end LibA32Android
