/-
What `build_elf32_symbol_index` has seen of the tables in memory.

* `SysvIndexed`: the words of an accepted SysV table;
* `GnuHeader`, `readGnuHeader_ok_iff`: the header of an accepted GNU table and the
  addresses of its parts;
* `ChainEnds`: where the chain from a symbol ends; both walks over chains look for
  this symbol (`checkGnuChain_ok_iff`, `findGnuSymbolCount_ok_iff`);
* `BuiltIndex`: the facts that a successful build leaves, and
  `buildElf32SymbolIndex_built`.
-/
import LibA32Android.Elf.HashLookup
import LibA32Android.Elf.MetadataConsumers

namespace LibA32Android

open Foundations QueryProgram

variable {o : ReadOracle}

/-! ### The steps -/

lemma readU32_ok_iff {ε : Type} {e : ε} {base address word : UInt32} {i : ℕ}
    (haddress : checkedAddGuestAddress base (i * 4) = some address) :
    (wordOr e (readU32 address)).under o = .ok word ↔ indexedWord o base i = some word := by
  rw [wordOr, indexedWord, haddress, Option.bind_some]
  simp only [under_bind, readU32, readBytes, under_query, ok_bind, under_pure]
  cases o (address, 4) with
  | none => simp
  | some bytes => simp

lemma headerWord_ok_iff {hashAddress word : UInt32} {i : ℕ} :
    (headerWord hashAddress (i * 4)).under o = .ok word
      ↔ indexedWord o hashAddress i = some word := by
  cases h : checkedAddGuestAddress hashAddress (i * 4) with
  | none => simp [headerWord, indexedWord, h]
  | some address =>
      rw [headerWord, h]
      exact readU32_ok_iff h

lemma tableAddress_ok_iff {base address : UInt32} {offset : ℕ} :
    (tableAddress base offset).under o = .ok address
      ↔ address.toNat = base.toNat + offset := by
  have hiff : (tableAddress base offset).under o = .ok address
      ↔ checkedAddGuestAddress base offset = some address := by
    rw [tableAddress]
    cases checkedAddGuestAddress base offset with
    | none => simp
    | some address' => simp
  rw [hiff, checkedAddGuestAddress_eq_some]
  exact ⟨fun h => h.2, fun h => ⟨h ▸ address.toNat_lt, h⟩⟩

lemma rangeFits_iff {address : UInt32} {size : ℕ} :
    (!rangeFits address size) = false ↔ address.toNat + size ≤ 2 ^ 32 := by
  simp [rangeFits]

/-! ### The SysV table -/

/-- The words of a SysV table: they can be read and are symbols of the table, or 0. -/
structure SysvIndexed (o : ReadOracle) (sysv : Elf32SysvHashIndex) : Prop where
  bucketCount_ne : sysv.bucketCount ≠ 0
  buckets : ∀ b < sysv.bucketCount.toNat, ∃ word,
    indexedWord o sysv.bucketsGuestAddress b = some word ∧ word < sysv.chainCount
  chains : ∀ i < sysv.chainCount.toNat, ∃ word,
    indexedWord o sysv.chainsGuestAddress i = some word ∧ word < sysv.chainCount

/-- The loops over the buckets and over the chains. -/
lemma checkSysvWords_ok {base count chainCount : UInt32} (hne : chainCount ≠ 0) {u : Unit}
    (h : (checkSysvWords base count chainCount).under o = .ok u) :
    ∀ i < count.toNat, ∃ word, indexedWord o base i = some word ∧ word < chainCount := by
  intro i hi
  rw [checkSysvWords, under_forM, forM_ok_iff] at h
  have hround := h i (List.mem_range.mpr hi)
  rw [under_bind] at hround
  obtain ⟨word, hword, hround⟩ := bind_ok_iff.mp hround
  rw [wordOr_ok_iff, toNat_ofNat_of_lt_count hi] at hword
  rw [under_reject, refuse_ok_iff] at hround
  refine ⟨word, hword, ?_⟩
  rcases eq_or_ne word 0 with rfl | hword0
  · exact UInt32.pos_iff_ne_zero.mpr hne
  · exact UInt32.not_le.mp fun hle => hround ⟨hle, hword0⟩

lemma buildSysvHash_ok {hashAddress : UInt32} {options : Elf32SymbolLookupOptions}
    {sysv : Elf32SysvHashIndex} (h : (buildSysvHash hashAddress options).under o = .ok sysv) :
    SysvIndexed o sysv := by
  simp only [buildSysvHash, under_bind, bind_ok_iff, under_reject, refuse_ok_iff, exists_const,
    under_pure, Except.ok.injEq] at h
  obtain ⟨bucketCount, -, chainCount, -, hne, -, -, -, bucketsAddress, -, chainsAddress, -, -, -, -,
    u, hbuckets, u', hchains, rfl⟩ := h
  push Not at hne
  exact ⟨hne.1, checkSysvWords_ok hne.2 hbuckets, checkSysvWords_ok hne.2 hchains⟩

/-! ### The header of the GNU table -/

/-- The header of a GNU table that passes the checks, and the addresses of the parts
of the table. -/
structure GnuHeader (o : ReadOracle) (hashAddress : UInt32) (options : Elf32SymbolLookupOptions)
    (gnu : Elf32GnuHashIndex) : Prop where
  bucketCount : indexedWord o hashAddress 0 = some gnu.bucketCount
  symbolOffset : indexedWord o hashAddress 1 = some gnu.symbolOffset
  bloomWordCount : indexedWord o hashAddress 2 = some gnu.bloomWordCount
  bloomShift : indexedWord o hashAddress 3 = some gnu.bloomShift
  valid : ¬(gnu.bucketCount = 0 ∨ gnu.symbolOffset = 0
    ∨ ¬(gnu.bloomWordCount ≠ 0 ∧ gnu.bloomWordCount &&& (gnu.bloomWordCount - 1) = 0)
    ∨ gnu.bloomShift ≥ 32)
  limits : ¬(gnu.bucketCount > options.maxHashBuckets
    ∨ gnu.bloomWordCount > options.maxGnuBloomWords) ∧ ¬gnu.symbolOffset > options.maxSymbols
  bloomAddress : gnu.bloomGuestAddress.toNat = hashAddress.toNat + 16
  bucketsAddress : gnu.bucketsGuestAddress.toNat
    = gnu.bloomGuestAddress.toNat + gnu.bloomWordCount.toNat * 4
  chainsAddress : gnu.chainsGuestAddress.toNat
    = gnu.bucketsGuestAddress.toNat + gnu.bucketCount.toNat * 4
  readable : (readableTable hashAddress
    (16 + gnu.bloomWordCount.toNat * 4 + gnu.bucketCount.toNat * 4) :
      GuestRead Elf32SymbolIndexError Bool).under o = .ok true

lemma readGnuHeader_ok_iff {hashAddress : UInt32} {options : Elf32SymbolLookupOptions}
    {gnu : Elf32GnuHashIndex} : (readGnuHeader hashAddress options).under o = .ok gnu
      ↔ GnuHeader o hashAddress options gnu := by
  simp only [readGnuHeader, under_bind, bind_ok_iff, under_reject, refuse_ok_iff, exists_const,
    under_pure, Except.ok.injEq, tableAddress_ok_iff]
  constructor
  · rintro ⟨bucketCount, hbuckets, symbolOffset, hoffset, bloomWordCount, hbloom, bloomShift, hshift,
      hvalid, hlimit, hsymbols, -, bloomAddress, hbloomAt, bucketsAddress, hbucketsAt,
      chainsAddress, hchainsAt, readable, hreadable, hok, rfl⟩
    rw [Bool.not_eq_true, Bool.not_eq_false'] at hok
    exact ⟨headerWord_ok_iff.mp hbuckets, headerWord_ok_iff.mp hoffset,
      headerWord_ok_iff.mp hbloom, headerWord_ok_iff.mp hshift, hvalid, ⟨hlimit, hsymbols⟩,
      hbloomAt, hbucketsAt, hchainsAt, hok ▸ hreadable⟩
  · intro h
    have hlt := gnu.chainsGuestAddress.toNat_lt
    have hchains := h.chainsAddress
    rw [h.bucketsAddress, h.bloomAddress] at hchains
    refine ⟨_, headerWord_ok_iff.mpr h.bucketCount, _, headerWord_ok_iff.mpr h.symbolOffset, _,
      headerWord_ok_iff.mpr h.bloomWordCount, _, headerWord_ok_iff.mpr h.bloomShift, h.valid,
      h.limits.1, h.limits.2, ?_, _, h.bloomAddress, _, h.bucketsAddress, _, h.chainsAddress, _,
      h.readable, by decide, rfl⟩
    rw [Bool.not_eq_true, rangeFits_iff]
    omega

/-! ### The buckets of the GNU table -/

/-- A bucket that the checks let pass. -/
def GnuBucketOk (gnu : Elf32GnuHashIndex) (options : Elf32SymbolLookupOptions)
    (sysvSymbolCount : Option UInt32) (word : UInt32) : Prop :=
  word ≠ 0 → gnu.symbolOffset ≤ word ∧ word < options.maxSymbols
    ∧ ∀ count ∈ sysvSymbolCount, word < count

section Buckets

variable {gnu : Elf32GnuHashIndex} {options : Elf32SymbolLookupOptions}
  {sysvSymbolCount : Option UInt32}

lemma checkGnuBucket_ok_iff {maximumBucket result : UInt32} {b : ℕ}
    (hb : b < gnu.bucketCount.toNat) :
    (checkGnuBucket gnu options sysvSymbolCount maximumBucket b).under o = .ok result
      ↔ ∃ word, indexedWord o gnu.bucketsGuestAddress b = some word
        ∧ GnuBucketOk gnu options sysvSymbolCount word
        ∧ result = if word = 0 then maximumBucket else max maximumBucket word := by
  rw [checkGnuBucket, under_bind, bind_ok_iff]
  refine exists_congr fun word => ?_
  rw [wordOr_ok_iff, toNat_ofNat_of_lt_count hb]
  refine and_congr_right fun _ => ?_
  by_cases h0 : word = 0
  · simp [h0, GnuBucketOk, eq_comm]
  · simp only [h0, if_false, under_bind, bind_ok_iff, under_reject, refuse_ok_iff, exists_const,
      under_pure, Except.ok.injEq, GnuBucketOk, ne_eq, not_false_eq_true, true_imp_iff, not_exists,
      not_and, UInt32.not_lt, UInt32.not_le, ge_iff_le, and_assoc, @eq_comm _ result]

/-- What the bucket loop has seen after the buckets `done`. -/
structure BucketsSeen (o : ReadOracle) (gnu : Elf32GnuHashIndex)
    (options : Elf32SymbolLookupOptions) (sysvSymbolCount : Option UInt32) (done : List ℕ)
    (maximumBucket : UInt32) : Prop where
  words : ∀ b ∈ done, ∃ word, indexedWord o gnu.bucketsGuestAddress b = some word
    ∧ GnuBucketOk gnu options sysvSymbolCount word ∧ word ≤ maximumBucket
  attained : maximumBucket ≠ 0 → ∃ b ∈ done,
    indexedWord o gnu.bucketsGuestAddress b = some maximumBucket

/-- One more bucket. -/
lemma BucketsSeen.step {done : List ℕ} {maximumBucket word : UInt32} {b : ℕ}
    (h : BucketsSeen o gnu options sysvSymbolCount done maximumBucket)
    (hword : indexedWord o gnu.bucketsGuestAddress b = some word)
    (hok : GnuBucketOk gnu options sysvSymbolCount word) :
    BucketsSeen o gnu options sysvSymbolCount (done ++ [b])
      (if word = 0 then maximumBucket else max maximumBucket word) := by
  have hmax : max maximumBucket word = if maximumBucket ≤ word then word else maximumBucket := rfl
  -- the new maximum is the old one or the word, and at least both
  have hcases : ((if word = 0 then maximumBucket else max maximumBucket word) = maximumBucket
        ∧ word ≤ maximumBucket)
      ∨ ((if word = 0 then maximumBucket else max maximumBucket word) = word
        ∧ maximumBucket ≤ word) := by
    split
    · rename_i h0
      exact .inl ⟨rfl, h0 ▸ UInt32.zero_le⟩
    · rw [hmax]
      split
      · exact .inr ⟨rfl, ‹_›⟩
      · rename_i hlt
        exact .inl ⟨rfl, UInt32.le_of_lt (UInt32.not_le.mp hlt)⟩
  constructor
  · intro b' hb'
    rcases List.mem_append.mp hb' with hb' | hb'
    · obtain ⟨word', hword', hok', hle'⟩ := h.words b' hb'
      refine ⟨word', hword', hok', ?_⟩
      rcases hcases with ⟨heq, -⟩ | ⟨heq, hle⟩
      · rw [heq]
        exact hle'
      · rw [heq]
        exact UInt32.le_trans hle' hle
    · obtain rfl := List.mem_singleton.mp hb'
      refine ⟨word, hword, hok, ?_⟩
      rcases hcases with ⟨heq, hle⟩ | ⟨heq, -⟩
      · rw [heq]
        exact hle
      · rw [heq]
        exact UInt32.le_refl _
  · rcases hcases with ⟨heq, -⟩ | ⟨heq, -⟩
    · rw [heq]
      intro hne
      obtain ⟨b', hb', hattained⟩ := h.attained hne
      exact ⟨b', List.mem_append_left _ hb', hattained⟩
    · rw [heq]
      exact fun _ => ⟨b, by simp, hword⟩

/-- **The bucket loop.** -/
lemma bucketsSeen {maximumBucket : UInt32}
    (h : ((List.range gnu.bucketCount.toNat).foldlM
      (checkGnuBucket gnu options sysvSymbolCount) 0).under o = .ok maximumBucket) :
    BucketsSeen o gnu options sysvSymbolCount (List.range gnu.bucketCount.toNat)
      maximumBucket := by
  rw [under_foldlM] at h
  refine foldlM_ok_induction (fun done maximumBucket => (∀ b ∈ done, b < gnu.bucketCount.toNat) →
    BucketsSeen o gnu options sysvSymbolCount done maximumBucket) ?_ _ [] 0 maximumBucket ?_ h
    fun b hb => List.mem_range.mp hb
  · intro done maximumBucket b result hseen hround hlt
    obtain ⟨word, hword, hok, rfl⟩ := (checkGnuBucket_ok_iff (hlt b (by simp))).mp hround
    exact (hseen fun b' hb' => hlt b' (List.mem_append_left _ hb')).step hword hok
  · intro _
    exact ⟨fun b hb => absurd hb List.not_mem_nil, fun hne => absurd rfl hne⟩

end Buckets

/-! ### The chains of the GNU table -/

/-- The chain word of a symbol. -/
def Elf32GnuHashIndex.chainWord (gnu : Elf32GnuHashIndex) (o : ReadOracle) (i : ℕ) :
    Option UInt32 :=
  indexedWord o gnu.chainsGuestAddress (i - gnu.symbolOffset.toNat)

/-- The chain from the symbol `s` on ends at the symbol `t`. -/
structure ChainEnds (o : ReadOracle) (gnu : Elf32GnuHashIndex) (s t : ℕ) : Prop where
  le : s ≤ t
  inner : ∀ i, s ≤ i → i < t → ∃ word, gnu.chainWord o i = some word ∧ word &&& 1 = 0
  last : ∃ word, gnu.chainWord o t = some word ∧ word &&& 1 ≠ 0

section Chains

variable {gnu : Elf32GnuHashIndex} {s t : ℕ}

/-- A chain word decides where the chain goes on. -/
lemma chainEnds_iff {word : UInt32} (hword : gnu.chainWord o s = some word) :
    ChainEnds o gnu s t ↔ if word &&& 1 ≠ 0 then t = s else ChainEnds o gnu (s + 1) t := by
  split
  · rename_i hbit
    constructor
    · intro h
      by_contra hne
      have hle := h.le
      obtain ⟨word', hword', hbit'⟩ := h.inner s le_rfl (by omega)
      rw [hword, Option.some.injEq] at hword'
      exact hbit (hword' ▸ hbit')
    · rintro rfl
      exact ⟨le_rfl, fun i hi hlt => absurd hi (by omega), word, hword, hbit⟩
  · rename_i hbit
    rw [ne_eq, not_not] at hbit
    constructor
    · intro h
      have hne : s ≠ t := by
        rintro rfl
        obtain ⟨word', hword', hbit'⟩ := h.last
        rw [hword, Option.some.injEq] at hword'
        exact hbit' (hword' ▸ hbit)
      have hle := h.le
      exact ⟨by omega, fun i hi hlt => h.inner i (by omega) hlt, h.last⟩
    · intro h
      have hle := h.le
      refine ⟨by omega, fun i hi hlt => ?_, h.last⟩
      rcases Nat.eq_or_lt_of_le hi with rfl | hi
      · exact ⟨word, hword, hbit⟩
      · exact h.inner i hi hlt

/-- One round of a walk that looks for the end of a chain among the next symbols. -/
lemma exists_chainEnds_iff {rounds : ℕ} {P : ℕ → Prop} :
    (∃ t < s + (rounds + 1), ChainEnds o gnu s t ∧ P t)
      ↔ ∃ word, gnu.chainWord o s = some word
        ∧ if word &&& 1 ≠ 0 then P s else ∃ t < s + 1 + rounds, ChainEnds o gnu (s + 1) t ∧ P t := by
  constructor
  · rintro ⟨t, hlt, hends, hP⟩
    have hword : ∃ word, gnu.chainWord o s = some word := by
      rcases Nat.eq_or_lt_of_le hends.le with rfl | hst
      · exact hends.last.imp fun _ h => h.1
      · exact (hends.inner s le_rfl hst).imp fun _ h => h.1
    obtain ⟨word, hword⟩ := hword
    refine ⟨word, hword, ?_⟩
    rw [chainEnds_iff hword] at hends
    split at hends
    · rw [if_pos ‹_›]
      exact hends ▸ hP
    · rw [if_neg ‹_›]
      exact ⟨t, by omega, hends, hP⟩
  · rintro ⟨word, hword, h⟩
    split at h
    · exact ⟨s, by omega, (chainEnds_iff hword).mpr (by rw [if_pos ‹_›]), h⟩
    · obtain ⟨t, hlt, hends, hP⟩ := h
      exact ⟨t, by omega, (chainEnds_iff hword).mpr (by rwa [if_neg ‹_›]), hP⟩

lemma not_chainEnds_self {P : ℕ → Prop} : ¬∃ t < s + 0, ChainEnds o gnu s t ∧ P t := by
  rintro ⟨t, hlt, hends, -⟩
  have hle := hends.le
  omega

/-- A symbol behind `symoffset` as the code counts it. -/
lemma toNat_sub_symbolOffset (hle : gnu.symbolOffset.toNat ≤ s) (hs : s < 2 ^ 32) :
    (UInt32.ofNat s - gnu.symbolOffset).toNat = s - gnu.symbolOffset.toNat := by
  have hs' : (UInt32.ofNat s).toNat = s := UInt32.toNat_ofNat_of_lt' hs
  rw [UInt32.toNat_sub_of_le _ _ (by rw [UInt32.le_iff_toNat_le, hs']; exact hle), hs']

/-- **The walk of one bucket** passes when the chain ends within the symbols left. -/
lemma checkGnuChain_ok_iff (rounds : ℕ) {u : Unit} (hle : gnu.symbolOffset.toNat ≤ s)
    (hs : s + rounds < 2 ^ 32) :
    (checkGnuChain gnu rounds (UInt32.ofNat s)).under o = .ok u
      ↔ ∃ t < s + rounds, ChainEnds o gnu s t ∧ True := by
  induction rounds generalizing s with
  | zero => exact iff_of_false (by simp [checkGnuChain]) not_chainEnds_self
  | succ rounds ih =>
      rw [checkGnuChain, under_bind, bind_ok_iff, exists_chainEnds_iff]
      refine exists_congr fun word => ?_
      rw [wordOr_ok_iff, toNat_sub_symbolOffset hle (by omega)]
      refine and_congr_right fun _ => ?_
      split
      · simp
      · rw [ofNat_add_one, ih (by omega) (by omega)]

/-- **The walk that counts the symbols** stops behind the end of the chain. -/
lemma findGnuSymbolCount_ok_iff (rounds : ℕ) (symbolCount : UInt32)
    (hle : gnu.symbolOffset.toNat ≤ s) (hs : s + rounds < 2 ^ 32) :
    (findGnuSymbolCount gnu rounds (UInt32.ofNat s)).under o = .ok symbolCount
      ↔ ∃ t < s + rounds, ChainEnds o gnu s t ∧ UInt32.ofNat (t + 1) = symbolCount := by
  induction rounds generalizing s with
  | zero => exact iff_of_false (by simp [findGnuSymbolCount]) not_chainEnds_self
  | succ rounds ih =>
      have hs' : (UInt32.ofNat s).toNat = s :=
        UInt32.toNat_ofNat_of_lt' (show s < 2 ^ 32 by omega)
      have hne : ¬UInt32.ofNat s = 0xffffffff := by
        rw [← UInt32.toNat_inj, hs']
        change ¬s = 4294967295
        omega
      rw [findGnuSymbolCount, exists_chainEnds_iff, hs', tableAddress]
      cases haddress : checkedAddGuestAddress gnu.chainsGuestAddress
          ((s - gnu.symbolOffset.toNat) * 4) with
      | none => simp [Elf32GnuHashIndex.chainWord, indexedWord, haddress]
      | some address =>
          rw [under_bind, under_pure, ok_bind, under_bind, bind_ok_iff]
          refine exists_congr fun word => ?_
          rw [readU32_ok_iff haddress]
          refine and_congr_right fun _ => ?_
          split
          · rw [under_bind, under_reject, refuse_neg hne, ok_bind, ofNat_add_one, under_pure,
              Except.ok.injEq]
          · rw [ofNat_add_one, ih (by omega) (by omega)]

/-- The same from the word of a bucket on, over the symbols left before `n`. -/
lemma checkGnuChain_word_iff {word n : UInt32} {u : Unit} (hle : gnu.symbolOffset ≤ word)
    (hn : word ≤ n) :
    (checkGnuChain gnu (n.toNat - word.toNat) word).under o = .ok u
      ↔ ∃ t < n.toNat, ChainEnds o gnu word.toNat t := by
  rw [UInt32.le_iff_toNat_le] at hle hn
  have hlt := n.toNat_lt
  have h := checkGnuChain_ok_iff (o := o) (u := u) (n.toNat - word.toNat) hle (by omega)
  rw [UInt32.ofNat_toNat, Nat.add_sub_cancel' hn] at h
  simpa using h

lemma findGnuSymbolCount_word_iff {word n symbolCount : UInt32} (hle : gnu.symbolOffset ≤ word)
    (hn : word ≤ n) :
    (findGnuSymbolCount gnu (n.toNat - word.toNat) word).under o = .ok symbolCount
      ↔ ∃ t < n.toNat, ChainEnds o gnu word.toNat t ∧ UInt32.ofNat (t + 1) = symbolCount := by
  rw [UInt32.le_iff_toNat_le] at hle hn
  have hlt := n.toNat_lt
  have h := findGnuSymbolCount_ok_iff (o := o) (n.toNat - word.toNat) symbolCount hle (by omega)
  rwa [UInt32.ofNat_toNat, Nat.add_sub_cancel' hn] at h

/-- The checks of the chains against a number of symbols. -/
lemma checkGnuChains_ok_iff {symbolCount : UInt32} {u : Unit} :
    (checkGnuChains gnu symbolCount).under o = .ok u
      ↔ gnu.symbolOffset ≤ symbolCount
        ∧ (checkTable gnu.chainsGuestAddress
          ((symbolCount.toNat - gnu.symbolOffset.toNat) * 4)).under o = .ok ()
        ∧ ∀ b < gnu.bucketCount.toNat, ∃ word,
          indexedWord o gnu.bucketsGuestAddress b = some word
          ∧ (word ≠ 0 →
            (checkGnuChain gnu (symbolCount.toNat - word.toNat) word).under o = .ok ()) := by
  simp only [checkGnuChains, under_bind, bind_ok_iff, under_reject, refuse_ok_iff, exists_const,
    under_forM, forM_ok_iff, UInt32.not_lt, gt_iff_lt, List.mem_range]
  refine and_congr_right fun _ => Unique.exists_iff.trans ?_
  refine and_congr_right fun _ => forall₂_congr fun b hb => exists_congr fun word => ?_
  rw [wordOr_ok_iff, toNat_ofNat_of_lt_count hb]
  refine and_congr_right fun _ => ?_
  by_cases h0 : word = 0
  · simp [h0]
  · simp [h0]

end Chains

/-! ### The index -/

/-- The buckets of a GNU table lead to chains that end before the symbol `n`. -/
structure GnuIndexed (o : ReadOracle) (gnu : Elf32GnuHashIndex) (n : UInt32) : Prop where
  bucketCount_ne : gnu.bucketCount ≠ 0
  symbolOffset_ne : gnu.symbolOffset ≠ 0
  buckets : ∀ b < gnu.bucketCount.toNat, ∃ word,
    indexedWord o gnu.bucketsGuestAddress b = some word
    ∧ (word ≠ 0 → gnu.symbolOffset ≤ word ∧ ∃ t < n.toNat, word.toNat ≤ t
      ∧ ∃ last, gnu.chainWord o t = some last ∧ last &&& 1 ≠ 0)

lemma buildGnuHash_ok {hashAddress : UInt32} {options : Elf32SymbolLookupOptions}
    {sysvSymbolCount : Option UInt32} {gnu : Elf32GnuHashIndex} {symbolCount : UInt32}
    (h : (buildGnuHash hashAddress options sysvSymbolCount).under o = .ok (gnu, symbolCount)) :
    GnuHeader o hashAddress options gnu ∧ GnuIndexed o gnu symbolCount
      ∧ ∀ count ∈ sysvSymbolCount, count = symbolCount := by
  rw [buildGnuHash, under_bind] at h
  obtain ⟨gnu', hheader, h⟩ := bind_ok_iff.mp h
  rw [under_bind] at h
  obtain ⟨maximumBucket, hbuckets, h⟩ := bind_ok_iff.mp h
  rw [readGnuHeader_ok_iff] at hheader
  have hseen := bucketsSeen hbuckets
  have hvalid := hheader.valid
  push Not at hvalid
  cases sysvSymbolCount with
  | some count =>
      rw [under_bind] at h
      obtain ⟨u, hchains, h⟩ := bind_ok_iff.mp h
      cases h
      obtain ⟨-, -, hchains⟩ := checkGnuChains_ok_iff.mp hchains
      refine ⟨hheader, ⟨hvalid.1, hvalid.2.1, fun b hb => ?_⟩, fun count' h => by simpa using h.symm⟩
      obtain ⟨word, hword, hok, -⟩ := hseen.words b (List.mem_range.mpr hb)
      obtain ⟨word', hword', hchain⟩ := hchains b hb
      obtain rfl : word' = word := Option.some.inj (hword'.symm.trans hword)
      refine ⟨word', hword, fun hne => ?_⟩
      obtain ⟨hle, -, hlt⟩ := hok hne
      have hlt := hlt symbolCount rfl
      obtain ⟨t, ht, hends⟩ := (checkGnuChain_word_iff hle (UInt32.le_of_lt hlt)).mp (hchain hne)
      exact ⟨hle, t, ht, hends.le, hends.last⟩
  | none =>
      dsimp only at h
      split at h
      · rename_i hzero
        cases h
        refine ⟨hheader, ⟨hvalid.1, hvalid.2.1, fun b hb => ?_⟩,
          fun count h => absurd h (Option.not_mem_none count)⟩
        obtain ⟨word, hword, -, hle⟩ := hseen.words b (List.mem_range.mpr hb)
        rw [hzero, UInt32.le_zero_iff] at hle
        exact ⟨word, hword, fun hne => absurd hle hne⟩
      · rename_i hne
        rw [under_bind] at h
        obtain ⟨count, hcount, h⟩ := bind_ok_iff.mp h
        cases h
        -- the chain of the largest bucket ends at the last symbol
        obtain ⟨b, hb, hmaximum⟩ := hseen.attained hne
        obtain ⟨word, hword, hok, -⟩ := hseen.words b hb
        obtain rfl : word = maximumBucket := Option.some.inj (hword.symm.trans hmaximum)
        obtain ⟨hle, hlt, -⟩ := hok hne
        obtain ⟨t, ht, hends, rfl⟩ :=
          (findGnuSymbolCount_word_iff hle (UInt32.le_of_lt hlt)).mp hcount
        have hlimit := options.maxSymbols.toNat_lt
        have ht' : (UInt32.ofNat (t + 1)).toNat = t + 1 :=
          UInt32.toNat_ofNat_of_lt' (show t + 1 < 2 ^ 32 by omega)
        refine ⟨hheader, ⟨hvalid.1, hvalid.2.1, fun b hb => ?_⟩,
          fun count h => absurd h (Option.not_mem_none count)⟩
        obtain ⟨word', hword', hok', hle'⟩ := hseen.words b (List.mem_range.mpr hb)
        refine ⟨word', hword', fun hne' => ⟨(hok' hne').1, t, by omega, ?_, hends.last⟩⟩
        exact (UInt32.le_iff_toNat_le.mp hle').trans hends.le

/-- The SysV table was there and accepted, or it was not there. -/
def SysvBuilt (o : ReadOracle) (metadata : Elf32LinkerMetadata)
    (options : Elf32SymbolLookupOptions) : Option Elf32SysvHashIndex → Prop
  | none => metadata.sysvHashTable = none
  | some sysv => ∃ table, metadata.sysvHashTable = some table
    ∧ (buildSysvHash table.guestAddress options).under o = .ok sysv

/-- The GNU table was there and accepted, or it was not there. -/
def GnuBuilt (o : ReadOracle) (metadata : Elf32LinkerMetadata)
    (options : Elf32SymbolLookupOptions) (sysvSymbolCount : Option UInt32) (symbolCount : UInt32) :
    Option Elf32GnuHashIndex → Prop
  | none => metadata.gnuHashTable = none ∧ sysvSymbolCount.getD 0 = symbolCount
  | some gnu => ∃ table, metadata.gnuHashTable = some table
    ∧ (buildGnuHash table.guestAddress options sysvSymbolCount).under o = .ok (gnu, symbolCount)

section Index

variable {metadata : Elf32LinkerMetadata} {options : Elf32SymbolLookupOptions}
  {index : Elf32SymbolIndex}

lemma buildHashTables_ok_iff : (buildHashTables metadata options).under o = .ok index
    ↔ SysvBuilt o metadata options index.sysvHash
      ∧ GnuBuilt o metadata options (index.sysvHash.map (·.chainCount)) index.symbolCount
        index.gnuHash := by
  obtain ⟨symbolCount, sysvHash, gnuHash⟩ := index
  rw [buildHashTables]
  cases hsysv : metadata.sysvHashTable with
  | none =>
      cases hgnu : metadata.gnuHashTable with
      | none =>
          cases sysvHash <;> cases gnuHash <;> simp [SysvBuilt, GnuBuilt, hsysv, hgnu]
      | some table =>
          cases sysvHash <;> cases gnuHash <;> simp [SysvBuilt, GnuBuilt, hsysv, hgnu, bind_ok_iff]
  | some sysvTable =>
      cases hgnu : metadata.gnuHashTable with
      | none =>
          cases sysvHash <;> cases gnuHash <;> simp [SysvBuilt, GnuBuilt, hsysv, hgnu, bind_ok_iff]
      | some table =>
          cases sysvHash <;> cases gnuHash <;> simp [SysvBuilt, GnuBuilt, hsysv, hgnu, bind_ok_iff]

/-- What a successful build leaves. -/
structure BuiltIndex (m : MappedGuestMemory) (metadata : Elf32LinkerMetadata)
    (index : Elf32SymbolIndex) : Prop where
  strings : metadata.stringTable.isSome
  symbols : ∃ symbolTable, metadata.symbolTable = some symbolTable
    ∧ m.Readable symbolTable.guestAddress.toNat (index.symbolCount.toNat * 16)
  count_ne : index.symbolCount ≠ 0
  gnu : ∀ gnu ∈ index.gnuHash, GnuIndexed (GuestMemory.reads m) gnu index.symbolCount
  sysv : ∀ sysv ∈ index.sysvHash, SysvIndexed (GuestMemory.reads m) sysv
    ∧ sysv.chainCount = index.symbolCount

/-- The hash tables that are there. -/
lemma buildHashTables_ok (h : (buildHashTables metadata options).under o = .ok index) :
    (∀ gnu ∈ index.gnuHash, GnuIndexed o gnu index.symbolCount)
      ∧ ∀ sysv ∈ index.sysvHash, SysvIndexed o sysv ∧ sysv.chainCount = index.symbolCount := by
  obtain ⟨hsysv, hgnu⟩ := buildHashTables_ok_iff.mp h
  have hcount : ∀ sysv ∈ index.sysvHash, SysvIndexed o sysv := by
    intro sysv hmem
    rw [hmem] at hsysv
    obtain ⟨table, -, hbuild⟩ := hsysv
    exact buildSysvHash_ok hbuild
  cases hindex : index.gnuHash with
  | none =>
      rw [hindex] at hgnu
      refine ⟨fun gnu h => absurd h (Option.not_mem_none gnu),
        fun sysv hmem => ⟨hcount sysv hmem, ?_⟩⟩
      obtain ⟨-, hsymbols⟩ := hgnu
      rw [← hsymbols, hmem]
      rfl
  | some gnu =>
      rw [hindex] at hgnu
      obtain ⟨table, -, hbuild⟩ := hgnu
      obtain ⟨-, hgnu, hsymbols⟩ := buildGnuHash_ok hbuild
      refine ⟨fun gnu' h => ?_, fun sysv hmem => ⟨hcount sysv hmem, hsymbols _ ?_⟩⟩
      · cases h
        exact hgnu
      · rw [hmem]
        rfl

/-- **The build**: what is checked besides the hash tables. -/
lemma buildElf32SymbolIndex_ok_iff {m : MappedGuestMemory} :
    (buildElf32SymbolIndex metadata options).under (GuestMemory.reads m) = .ok index
      ↔ ¬(options.maxSymbols = 0 ∨ options.maxHashBuckets = 0 ∨ options.maxGnuBloomWords = 0)
        ∧ metadata.stringTable.isSome ∧ ∃ symbolTable, metadata.symbolTable = some symbolTable
        ∧ ¬(metadata.sysvHashTable.isNone ∧ metadata.gnuHashTable.isNone)
        ∧ (buildHashTables metadata options).under (GuestMemory.reads m) = .ok index
        ∧ index.symbolCount ≠ 0 ∧ index.symbolCount ≤ options.maxSymbols
        ∧ m.Readable symbolTable.guestAddress.toNat (index.symbolCount.toNat * 16) := by
  rw [buildElf32SymbolIndex, under_bind, under_reject, refuse_bind_ok_iff, under_bind,
    under_reject, refuse_bind_ok_iff, Bool.not_eq_true, Option.isNone_eq_false_iff]
  refine and_congr_right fun _ => and_congr_right fun _ => ?_
  cases hsymbols : metadata.symbolTable with
  | none => simp
  | some symbolTable =>
      simp only [under_bind, bind_ok_iff, under_reject, refuse_ok_iff, exists_const, under_pure,
        Except.ok.injEq, gt_iff_lt, UInt32.not_lt, Option.some.injEq, exists_eq_left']
      refine and_congr_right fun _ => ?_
      constructor
      · rintro ⟨index', hbuild, hcount, hlimit, -, readable, hreadable, hok, rfl⟩
        rw [Bool.not_eq_true, Bool.not_eq_false'] at hok
        exact ⟨hbuild, hcount, hlimit, readableTable_true_iff.mp (hok ▸ hreadable)⟩
      · rintro ⟨hbuild, hcount, hlimit, hreadable⟩
        refine ⟨index, hbuild, hcount, hlimit, ?_, true, readableTable_true_iff.mpr hreadable,
          by decide, rfl⟩
        rw [Bool.not_eq_true, rangeFits_iff]
        exact hreadable.1

theorem buildElf32SymbolIndex_built {m : MappedGuestMemory}
    (h : (buildElf32SymbolIndex metadata options).under (GuestMemory.reads m) = .ok index) :
    BuiltIndex m metadata index := by
  obtain ⟨-, hstrings, symbolTable, hsymbols, -, hbuild, hcount, -, hreadable⟩ :=
    buildElf32SymbolIndex_ok_iff.mp h
  obtain ⟨hgnu, hsysv⟩ := buildHashTables_ok hbuild
  exact ⟨hstrings, ⟨symbolTable, hsymbols, hreadable⟩, hcount, hgnu, hsysv⟩

end Index

end LibA32Android
