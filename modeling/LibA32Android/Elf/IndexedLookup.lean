/-
Lookups through an index that was built on the same memory.

* `tableErrors`: the errors of a lookup that blame the hash tables or the symbol
  table;
* `evaluation_settled`: a candidate of the table is never blamed this way;
* `lookupGnu_settled`: through a GNU table a walk finds the end of its chain, since
  the chain of the largest bucket ends at the last symbol;
* `lookupSysv_invalidHashChain_iff`: through a SysV table a walk that is given up
  has gone round;
* `indexed_lookup`: both, for `lookup_elf32_symbol`.
-/
import LibA32Android.Elf.BuiltIndex

namespace LibA32Android

open Foundations QueryProgram

/-- The errors that blame the hash tables or the symbol table. -/
def tableErrors : List Elf32SymbolLookupError :=
  [.hashReadFailed, .hashIndexOutOfRange, .invalidHashChain, .symbolReadFailed]

lemma settled_of_subset {α : Type} {errors errors' : List Elf32SymbolLookupError}
    (h : errors' ⊆ errors) {outcome : Except Elf32SymbolLookupFailure α}
    (houtcome : Settled (fun failure => failure.error ∉ errors) outcome) :
    Settled (fun failure => failure.error ∉ errors') outcome :=
  houtcome.mono fun _ hout hmem => hout (h hmem)

lemma versionLookupError_notMem (e : Elf32SymbolVersionError) :
    versionLookupError e ∉ tableErrors := by
  cases e <;> decide

lemma wordOr_settled {ε : Type} {K : ε → Prop} {o : ReadOracle} {e : ε} (he : K e)
    (base index : UInt32) :
    Settled K ((wordOr e (readIndexedWord base index)).under o) := by
  rw [wordOr, under_bind, readIndexedWord_under, ok_bind]
  cases indexedWord o base index.toNat with
  | none => exact settled_error.mpr he
  | some word => exact settled_ok word

lemma settled_orNext {ε α : Type} {K : ε → Prop} {outcome : Except ε (Option α)}
    {next : Except ε α} (houtcome : Settled K outcome) (hnext : Settled K next) :
    Settled K (orNext outcome next) := by
  rcases outcome with e | _ | a
  · exact settled_error.mpr (settled_error.mp houtcome)
  · exact hnext
  · exact settled_ok a

/-! ### Candidates -/

/-- An entry of a readable symbol table. -/
lemma readSymbolBytes_readable {ε : Type} {m : MappedGuestMemory}
    {table : Elf32SymbolTableMetadata} {n : UInt32}
    (h : m.Readable table.guestAddress.toNat (n.toNat * 16)) {i : ℕ} (hi : i < n.toNat) :
    ∃ bytes, (readSymbolBytes table (UInt32.ofNat i) : GuestRead ε _).under (GuestMemory.reads m)
      = .ok (some bytes) := by
  have hend := h.1
  have haddress : checkedAddGuestAddress table.guestAddress ((UInt32.ofNat i).toNat * 16)
      = some (UInt32.ofNat (table.guestAddress.toNat + i * 16)) := by
    rw [toNat_ofNat_of_lt_count hi, checkedAddGuestAddress_eq_some]
    have hlt : table.guestAddress.toNat + i * 16 < 2 ^ 32 := by omega
    exact ⟨hlt, UInt32.toNat_ofNat_of_lt' hlt⟩
  have hread : GuestMemory.reads m (UInt32.ofNat (table.guestAddress.toNat + i * 16), 16) = some _ :=
    h.read (by omega) (by omega) (by omega)
  rw [readSymbolBytes, haddress]
  simp only [readBytes, under_query, hread]
  exact ⟨_, rfl⟩

namespace LookupQuery

variable {query : LookupQuery} {m : MappedGuestMemory}

/-- Behind the name a candidate is not blamed on the tables either. -/
lemma evaluateDefinition_settled {o : ReadOracle} {i : ℕ} {bytes : List UInt8}
    (hbytes : (readSymbolBytes query.symbolTable (UInt32.ofNat i) :
      GuestRead Elf32SymbolLookupFailure _).under o = .ok (some bytes))
    (symbol : Elf32Symbol) (symbolName : ByteString) :
    Settled (fun failure => failure.error ∉ tableErrors)
      ((query.evaluateDefinition (UInt32.ofNat i) symbol symbolName).under o) := by
  rw [evaluateDefinition, under_bind, under_reject]
  refine Settled.refuse_bind (fun _ => by decide) fun _ => ?_
  rw [under_bind, hbytes, ok_bind, under_bind, under_ofExcept]
  refine Settled.bind ?_ fun _ _ => ?_
  · exact .refuse_bind (fun _ => by decide) fun _ => .refuse_bind (fun _ => by decide) fun _ =>
      .refuse_bind (fun _ => by decide) fun _ => settled_refuse fun _ => by decide
  · rw [under_bind, under_mapError]
    refine Settled.bind ?_ fun matching _ => ?_
    · exact settled_mapError fun failure _ => versionLookupError_notMem failure.error
    · rw [under_ite]
      split
      · exact settled_ok none
      · rw [under_bind, under_ofExcept, symbolGuestValue]
        refine Settled.bind ?_ fun _ _ => settled_ok _
        split
        · split
          · exact settled_error.mpr (by decide)
          · exact settled_ok _
        · exact settled_ok _

/-- **A candidate of a readable symbol table** is not blamed on the tables. -/
lemma evaluation_settled
    (hread : m.Readable query.symbolTable.guestAddress.toNat (query.symbolCount.toNat * 16))
    {i : ℕ} (hpos : i ≠ 0) (hi : i < query.symbolCount.toNat) :
    Settled (fun failure => failure.error ∉ tableErrors)
      (query.evaluation (GuestMemory.reads m) i) := by
  obtain ⟨bytes, hbytes⟩ := readSymbolBytes_readable (ε := Elf32SymbolLookupFailure) hread hi
  have hin : ¬(UInt32.ofNat i = 0 ∨ UInt32.ofNat i ≥ query.symbolCount) := by
    rw [← UInt32.toNat_inj, ge_iff_le, UInt32.le_iff_toNat_le, toNat_ofNat_of_lt_count hi]
    simp
    omega
  rw [evaluation, evaluateCandidate, under_bind, under_reject, refuse_neg hin, ok_bind, under_bind,
    readSymbol, under_bind, hbytes, ok_bind, under_pure, ok_bind, Option.map_some, under_bind,
    under_mapError]
  refine Settled.bind ?_ fun symbolName _ => ?_
  · refine settled_mapError fun e _ => ?_
    change Elf32SymbolLookupError.stringReadFailed ∉ tableErrors
    decide
  · rw [under_ite, under_ite]
    split
    · exact settled_ok none
    · split
      · exact settled_ok none
      · exact evaluateDefinition_settled hbytes _ _

end LookupQuery

/-! ### Through a GNU table -/

/-- The errors that a lookup through a built GNU table does not return. -/
def gnuTableErrors : List Elf32SymbolLookupError :=
  [.hashIndexOutOfRange, .invalidHashChain, .symbolReadFailed]

namespace LookupQuery

variable {query : LookupQuery} {o : ReadOracle} {gnu : Elf32GnuHashIndex}

/-- The walk from a symbol with an end of a chain ahead of it. -/
lemma walkGnuChain_settled (hash : UInt32) (hoffset : gnu.symbolOffset ≠ 0)
    (hcandidates : ∀ i ≠ 0, i < query.symbolCount.toNat →
      Settled (fun failure => failure.error ∉ gnuTableErrors) (query.evaluation o i)) :
    ∀ rounds s, s + rounds = query.symbolCount.toNat → gnu.symbolOffset.toNat ≤ s →
      (∃ t < query.symbolCount.toNat, s ≤ t
        ∧ ∃ last, gnu.chainWord o t = some last ∧ last &&& 1 ≠ 0) →
      Settled (fun failure => failure.error ∉ gnuTableErrors)
        ((query.walkGnuChain gnu hash rounds (UInt32.ofNat s)).under o) := by
  have hpos : gnu.symbolOffset.toNat ≠ 0 := fun h0 => hoffset (UInt32.toNat_inj.mp h0)
  intro rounds
  induction rounds with
  | zero =>
      rintro s hs - ⟨t, ht, hst, -⟩
      omega
  | succ rounds ih =>
      rintro s hs hle ⟨t, ht, hst, last, hlast, hbit⟩
      have hlt : s < query.symbolCount.toNat := by omega
      have hsize := query.symbolCount.toNat_lt
      rw [walkGnuChain, under_bind]
      refine (wordOr_settled (by decide) _ _).bind fun word hword => ?_
      rw [wordOr_ok_iff, toNat_sub_symbolOffset hle (by omega)] at hword
      have hnext : Settled (fun failure => failure.error ∉ gnuTableErrors)
          (under o (if word &&& 1 ≠ 0 then .fail { error := .symbolNotFound }
            else query.walkGnuChain gnu hash rounds (UInt32.ofNat s + 1))) := by
        rw [under_ite]
        split
        · exact settled_error.mpr (by decide)
        · rename_i hclear
          -- the chain does not end here, so its end is still ahead
          have hne : s ≠ t := by
            rintro rfl
            obtain rfl : word = last := Option.some.inj (hword.symm.trans hlast)
            exact hclear hbit
          rw [ofNat_add_one]
          exact ih (s + 1) (by omega) (by omega) ⟨t, ht, by omega, last, hlast, hbit⟩
      dsimp only
      rw [under_ite, orElse_under]
      split
      · exact settled_orNext (hcandidates s (by omega) hlt) hnext
      · exact hnext

/-- **A lookup through a built GNU table.** -/
lemma lookupGnu_settled (hgnu : GnuIndexed o gnu query.symbolCount)
    (hcandidates : ∀ i ≠ 0, i < query.symbolCount.toNat →
      Settled (fun failure => failure.error ∉ gnuTableErrors) (query.evaluation o i)) :
    Settled (fun failure => failure.error ∉ gnuTableErrors) ((query.lookupGnu gnu).under o) := by
  have hbuckets : 0 < gnu.bucketCount.toNat :=
    Nat.pos_of_ne_zero fun h0 => hgnu.bucketCount_ne (UInt32.toNat_inj.mp h0)
  rw [lookupGnu, under_bind]
  refine (wordOr_settled (by decide) _ _).bind fun bloomWord _ => ?_
  rw [under_bind, under_reject]
  refine .refuse_bind (fun _ => by decide) fun _ => ?_
  obtain ⟨word, hword, hchain⟩ := hgnu.buckets _ (Nat.mod_lt (gnuHash query.name).toNat hbuckets)
  rw [← UInt32.toNat_mod] at hword
  rw [under_bind, wordOr_under hword, ok_bind, under_bind, under_reject]
  refine .refuse_bind (fun _ => by decide) fun hne => ?_
  obtain ⟨hle, t, ht, hst, hlast⟩ := hchain hne
  rw [UInt32.le_iff_toNat_le] at hle
  have hin : ¬(word < gnu.symbolOffset ∨ word ≥ query.symbolCount) := by
    rw [UInt32.lt_iff_toNat_lt, ge_iff_le, UInt32.le_iff_toNat_le]
    omega
  rw [under_bind, under_reject, refuse_neg hin, ok_bind]
  have hwalk := walkGnuChain_settled (gnuHash query.name) hgnu.symbolOffset_ne hcandidates
    (query.symbolCount.toNat - word.toNat) word.toNat (by omega) hle ⟨t, ht, hst, hlast⟩
  rwa [UInt32.ofNat_toNat] at hwalk

end LookupQuery

/-! ### Through a SysV table -/

/-- The errors that a lookup through a built SysV table does not return. -/
def sysvTableErrors : List Elf32SymbolLookupError :=
  [.hashReadFailed, .hashIndexOutOfRange, .symbolReadFailed]

namespace Elf32SysvHashIndex

variable (sysv : Elf32SysvHashIndex) (o : ReadOracle)

/-- The first symbol of the bucket of a name. -/
def first (name : ByteString) : ℕ :=
  ((indexedWord o sysv.bucketsGuestAddress
    ((sysvHash name).toNat % sysv.bucketCount.toNat)).map UInt32.toNat).getD 0

/-- The symbol behind another one on a chain. -/
def follow (i : ℕ) : ℕ := (sysv.next o i).getD 0

/-- The symbol that a walk over the bucket of a name meets after `k` hops. -/
def walked (name : ByteString) (k : ℕ) : ℕ := (sysv.follow o)^[k] (sysv.first o name)

end Elf32SysvHashIndex

namespace SysvIndexed

variable {o : ReadOracle} {sysv : Elf32SysvHashIndex}

lemma first_spec (h : SysvIndexed o sysv) (name : ByteString) :
    indexedWord o sysv.bucketsGuestAddress (sysvHash name % sysv.bucketCount).toNat
        = some (UInt32.ofNat (sysv.first o name))
      ∧ sysv.first o name < sysv.chainCount.toNat := by
  have hbuckets : 0 < sysv.bucketCount.toNat :=
    Nat.pos_of_ne_zero fun h0 => h.bucketCount_ne (UInt32.toNat_inj.mp h0)
  obtain ⟨word, hword, hlt⟩ := h.buckets _ (Nat.mod_lt (sysvHash name).toNat hbuckets)
  have hfirst : sysv.first o name = word.toNat := by
    rw [Elf32SysvHashIndex.first, hword]
    rfl
  rw [hfirst, UInt32.ofNat_toNat, UInt32.toNat_mod]
  exact ⟨hword, UInt32.lt_iff_toNat_lt.mp hlt⟩

lemma follow_spec (h : SysvIndexed o sysv) {i : ℕ} (hi : i < sysv.chainCount.toNat) :
    indexedWord o sysv.chainsGuestAddress i = some (UInt32.ofNat (sysv.follow o i))
      ∧ sysv.follow o i < sysv.chainCount.toNat := by
  obtain ⟨word, hword, hlt⟩ := h.chains i hi
  have hfollow : sysv.follow o i = word.toNat := by
    rw [Elf32SysvHashIndex.follow, Elf32SysvHashIndex.next, hword]
    rfl
  rw [hfollow, UInt32.ofNat_toNat]
  exact ⟨hword, UInt32.lt_iff_toNat_lt.mp hlt⟩

lemma walked_lt (h : SysvIndexed o sysv) (name : ByteString) (k : ℕ) :
    sysv.walked o name k < sysv.chainCount.toNat := by
  induction k with
  | zero => exact (h.first_spec name).2
  | succ k ih =>
      rw [Elf32SysvHashIndex.walked, Function.iterate_succ_apply']
      exact (h.follow_spec ih).2

end SysvIndexed

namespace LookupQuery

variable {query : LookupQuery} {o : ReadOracle} {sysv : Elf32SysvHashIndex}

/-- One hop over a built table. -/
lemma walkSysvChain_follow (hsysv : SysvIndexed o sysv) (hcount : sysv.chainCount = query.symbolCount)
    {s : ℕ} (hs : s < query.symbolCount.toNat) (hne : s ≠ 0) (hops : ℕ) :
    (query.walkSysvChain sysv (hops + 1) (UInt32.ofNat s)).under o
      = orNext (query.evaluation o s)
        ((query.walkSysvChain sysv hops (UInt32.ofNat (sysv.follow o s))).under o) := by
  obtain ⟨hword, hlt⟩ := hsysv.follow_spec (hcount ▸ hs)
  rw [hcount] at hlt
  refine walkSysvChain_succ hs hne hword ?_ hops
  rwa [toNat_ofNat_of_lt_count hlt]

lemma walkSysvChain_settled (hsysv : SysvIndexed o sysv)
    (hcount : sysv.chainCount = query.symbolCount)
    (hcandidates : ∀ i ≠ 0, i < query.symbolCount.toNat →
      Settled (fun failure => failure.error ∉ sysvTableErrors) (query.evaluation o i)) :
    ∀ hops s, s < query.symbolCount.toNat →
      Settled (fun failure => failure.error ∉ sysvTableErrors)
        ((query.walkSysvChain sysv hops (UInt32.ofNat s)).under o) := by
  intro hops
  induction hops with
  | zero =>
      intro s _
      rw [walkSysvChain, under_ite]
      split
      · exact settled_error.mpr (by decide)
      · exact settled_error.mpr (by decide)
  | succ hops ih =>
      intro s hs
      rcases eq_or_ne s 0 with rfl | hne
      · exact settled_error.mpr (by decide)
      · rw [walkSysvChain_follow hsysv hcount hs hne]
        have hlt := (hsysv.follow_spec (hcount ▸ hs)).2
        exact settled_orNext (hcandidates s hne hs) (ih _ (hcount ▸ hlt))

/-- The walk from a symbol is given up when none of its hops leads to 0 or to a
candidate that decides. -/
lemma walkSysvChain_invalidHashChain_iff (hsysv : SysvIndexed o sysv)
    (hcount : sysv.chainCount = query.symbolCount)
    (hcandidates : ∀ i ≠ 0, i < query.symbolCount.toNat →
      Settled (fun failure => failure.error ∉ tableErrors) (query.evaluation o i)) :
    ∀ hops s, s < query.symbolCount.toNat →
      ((∃ failure, (query.walkSysvChain sysv hops (UInt32.ofNat s)).under o = .error failure
          ∧ failure.error = .invalidHashChain)
        ↔ (∀ k < hops, (sysv.follow o)^[k] s ≠ 0
            ∧ query.evaluation o ((sysv.follow o)^[k] s) = .ok none)
          ∧ (sysv.follow o)^[hops] s ≠ 0) := by
  intro hops
  induction hops with
  | zero =>
      intro s hs
      have hzero : UInt32.ofNat s ≠ 0 ↔ s ≠ 0 := by
        rw [ne_eq, ← UInt32.toNat_inj, toNat_ofNat_of_lt_count hs]
        rfl
      rw [walkSysvChain, Function.iterate_zero_apply, ← hzero]
      by_cases h0 : UInt32.ofNat s = 0
      · simp [h0]
      · simp [h0]
  | succ hops ih =>
      intro s hs
      rw [Nat.forall_lt_succ_left]
      simp only [Function.iterate_zero_apply, Function.iterate_succ_apply]
      rcases eq_or_ne s 0 with rfl | hne
      · simp [walkSysvChain]
      · have hlt := (hsysv.follow_spec (hcount ▸ hs)).2
        rw [walkSysvChain_follow hsysv hcount hs hne]
        have hcandidate := hcandidates s hne hs
        rcases heval : query.evaluation o s with failure | _ | symbol
        · rw [heval, settled_error] at hcandidate
          have hother : failure.error ≠ .invalidHashChain := by
            intro h
            rw [h] at hcandidate
            exact hcandidate (by decide)
          simp [orNext, hother]
        · rw [orNext_miss, ih _ (hcount ▸ hlt)]
          simp [hne]
        · simp [orNext]

/-- A lookup through a built SysV table is a walk over as many hops as there are
symbols. -/
lemma lookupSysv_eq_walk (hsysv : SysvIndexed o sysv) (hcount : sysv.chainCount = query.symbolCount) :
    (query.lookupSysv sysv).under o
      = (query.walkSysvChain sysv query.symbolCount.toNat
        (UInt32.ofNat (sysv.first o query.name))).under o := by
  obtain ⟨hword, hlt⟩ := hsysv.first_spec query.name
  rw [hcount] at hlt
  have hin : ¬(UInt32.ofNat (sysv.first o query.name) ≥ query.symbolCount
      ∧ UInt32.ofNat (sysv.first o query.name) ≠ 0) := by
    rw [ge_iff_le, UInt32.le_iff_toNat_le, toNat_ofNat_of_lt_count hlt]
    omega
  rw [lookupSysv, under_bind, wordOr_under hword, ok_bind, under_bind, under_reject,
    refuse_neg hin, ok_bind]

/-- **A lookup through a built SysV table.** -/
lemma lookupSysv_settled (hsysv : SysvIndexed o sysv) (hcount : sysv.chainCount = query.symbolCount)
    (hcandidates : ∀ i ≠ 0, i < query.symbolCount.toNat →
      Settled (fun failure => failure.error ∉ sysvTableErrors) (query.evaluation o i)) :
    Settled (fun failure => failure.error ∉ sysvTableErrors)
      ((query.lookupSysv sysv).under o) := by
  rw [lookupSysv_eq_walk hsysv hcount]
  have hlt := (hsysv.first_spec query.name).2
  rw [hcount] at hlt
  exact walkSysvChain_settled hsysv hcount hcandidates _ _ hlt

/-- **A lookup that is given up has gone round**: by the pigeonhole principle a walk
that has met no end in as many hops as there are symbols never meets one. -/
lemma lookupSysv_invalidHashChain_iff (hsysv : SysvIndexed o sysv)
    (hcount : sysv.chainCount = query.symbolCount) (hne : query.symbolCount ≠ 0)
    (hcandidates : ∀ i ≠ 0, i < query.symbolCount.toNat →
      Settled (fun failure => failure.error ∉ tableErrors) (query.evaluation o i)) :
    (∃ failure, (query.lookupSysv sysv).under o = .error failure
        ∧ failure.error = .invalidHashChain)
      ↔ ∀ k, sysv.walked o query.name k ≠ 0
        ∧ query.evaluation o (sysv.walked o query.name k) = .ok none := by
  have hpos : query.symbolCount.toNat ≠ 0 := fun h0 => hne (UInt32.toNat_inj.mp h0)
  have hlt := (hsysv.first_spec query.name).2
  rw [hcount] at hlt
  rw [lookupSysv_eq_walk hsysv hcount,
    walkSysvChain_invalidHashChain_iff hsysv hcount hcandidates _ _ hlt]
  constructor
  · rintro ⟨hmiss, -⟩ k
    have hmem : ∀ k < query.symbolCount.toNat,
        (sysv.follow o)^[k] (sysv.first o query.name) ∈ Finset.Ico 1 query.symbolCount.toNat := by
      intro k hk
      have hwalked := hcount ▸ hsysv.walked_lt query.name k
      exact Finset.mem_Ico.mpr ⟨Nat.pos_of_ne_zero (hmiss k hk).1, hwalked⟩
    have hcard : (Finset.Ico 1 query.symbolCount.toNat).card < query.symbolCount.toNat := by
      rw [Nat.card_Ico]
      omega
    obtain ⟨j, hj, heq⟩ := exists_iterate_eq_of_card_lt hcard hmem k
    rw [Elf32SysvHashIndex.walked, heq]
    exact hmiss j hj
  · intro h
    exact ⟨fun k _ => h k, (h _).1⟩

end LookupQuery

/-! ### Lookups -/

/-- A lookup with valid options and a name is the one of the table that the index
prefers. -/
lemma lookupElf32SymbolImpl_under {o : ReadOracle} {metadata : Elf32LinkerMetadata}
    {stringTable : Elf32StringTableMetadata} {symbolTable : Elf32SymbolTableMetadata}
    (hstrings : metadata.stringTable = some stringTable)
    (hsymbols : metadata.symbolTable = some symbolTable) {index : Elf32SymbolIndex}
    (hcount : index.symbolCount ≠ 0) {options : Elf32SymbolLookupOptions} {name : ByteString}
    (hlimit : options.maxNameBytes ≠ 0) (hname : name ≠ []) (loadBias : UInt32)
    (requirement : Option Elf32SymbolVersionRequirement) :
    let query : LookupQuery :=
      { loadBias, metadata, stringTable, symbolTable, symbolCount := index.symbolCount, name,
        options, requirement }
    (∀ gnu, index.gnuHash = some gnu →
      (lookupElf32SymbolImpl loadBias metadata index name options requirement).under o
        = (query.lookupGnu gnu).under o)
    ∧ ∀ sysv, index.gnuHash = none → index.sysvHash = some sysv →
      (lookupElf32SymbolImpl loadBias metadata index name options requirement).under o
        = (query.lookupSysv sysv).under o := by
  intro query
  constructor
  · intro gnu hgnu
    simp only [lookupElf32SymbolImpl, under_bind, under_reject, refuse_neg hlimit,
      refuse_neg hname, ok_bind, hstrings, hsymbols, refuse_neg hcount, hgnu, query]
  · intro sysv hgnu hsysv
    simp only [lookupElf32SymbolImpl, under_bind, under_reject, refuse_neg hlimit,
      refuse_neg hname, ok_bind, hstrings, hsymbols, refuse_neg hcount, hgnu, hsysv, query]

/-- Without a name to look for, or with a limit of 0, no table is looked at. -/
lemma lookupElf32SymbolImpl_invalid {o : ReadOracle} {options : Elf32SymbolLookupOptions}
    {name : ByteString} (h : options.maxNameBytes = 0 ∨ name = []) (loadBias : UInt32)
    (metadata : Elf32LinkerMetadata) (index : Elf32SymbolIndex)
    (requirement : Option Elf32SymbolVersionRequirement) :
    Settled (fun failure => failure.error ∉ tableErrors)
      ((lookupElf32SymbolImpl loadBias metadata index name options requirement).under o) := by
  rw [lookupElf32SymbolImpl, under_bind, under_reject]
  refine .refuse_bind (fun _ => by decide) fun hlimit => ?_
  rw [under_bind, under_reject, refuse_pos (h.resolve_left hlimit)]
  exact settled_error.mpr (by decide)

/-- **A built index makes lookups well behaved.**  Let an index be built on a memory.
A lookup through it on this memory, if the index has a GNU table, never blames an
index, a chain or the symbol table, whatever the chains of the lower buckets contain.
If the index has a SysV table only, it never blames a read of the hash table, an index
or the symbol table, and it blames the chain exactly when the walk from the bucket of
the name meets neither a candidate that decides nor the index 0, however long it goes
on. -/
theorem indexed_lookup {m : MappedGuestMemory} {metadata : Elf32LinkerMetadata}
    {options : Elf32SymbolLookupOptions} {index : Elf32SymbolIndex}
    (hbuild : (buildElf32SymbolIndex metadata options).under (GuestMemory.reads m) = .ok index)
    {stringTable : Elf32StringTableMetadata} {symbolTable : Elf32SymbolTableMetadata}
    (hstrings : metadata.stringTable = some stringTable)
    (hsymbols : metadata.symbolTable = some symbolTable)
    (loadBias : UInt32) (name : ByteString) (lookupOptions : Elf32SymbolLookupOptions) :
    let o := GuestMemory.reads m
    let lookup := (lookupElf32Symbol loadBias metadata index name lookupOptions).under o
    let query : LookupQuery :=
      { loadBias, metadata, stringTable, symbolTable, symbolCount := index.symbolCount, name,
        options := lookupOptions, requirement := none }
    (index.gnuHash.isSome → ∀ failure, lookup = .error failure →
      failure.error ∉ [.hashIndexOutOfRange, .invalidHashChain, .symbolReadFailed])
    ∧ ∀ sysv, index.gnuHash = none → index.sysvHash = some sysv →
      (∀ failure, lookup = .error failure →
        failure.error ∉ [.hashReadFailed, .hashIndexOutOfRange, .symbolReadFailed])
      ∧ ((∃ failure, lookup = .error failure ∧ failure.error = .invalidHashChain)
        ↔ (lookupOptions.maxNameBytes ≠ 0 ∧ name ≠ [])
          ∧ ∀ k, sysv.walked o name k ≠ 0 ∧ query.evaluation o (sysv.walked o name k) = .ok none) := by
  intro o lookup query
  have hbuilt := buildElf32SymbolIndex_built hbuild
  obtain ⟨symbolTable', hsymbols', hreadable⟩ := hbuilt.symbols
  obtain rfl : symbolTable' = symbolTable := Option.some.inj (hsymbols'.symm.trans hsymbols)
  have hcandidates : ∀ i ≠ 0, i < query.symbolCount.toNat →
      Settled (fun failure => failure.error ∉ tableErrors) (query.evaluation o i) :=
    fun i hne hi => LookupQuery.evaluation_settled hreadable hne hi
  by_cases hvalid : lookupOptions.maxNameBytes = 0 ∨ name = []
  · have hinvalid : Settled (fun failure => failure.error ∉ tableErrors) lookup :=
      lookupElf32SymbolImpl_invalid hvalid loadBias metadata index none
    refine ⟨fun _ => settled_of_subset (by decide) hinvalid, fun sysv _ _ =>
      ⟨settled_of_subset (by decide) hinvalid, iff_of_false ?_ ?_⟩⟩
    · rintro ⟨failure, hfailure, herror⟩
      have hnone : failure.error ∉ tableErrors := hinvalid failure hfailure
      rw [herror] at hnone
      exact hnone (by decide)
    · rintro ⟨⟨hlimit, hname⟩, -⟩
      exact hvalid.elim hlimit hname
  · push Not at hvalid
    obtain ⟨hlookupGnu, hlookupSysv⟩ := lookupElf32SymbolImpl_under (o := o) hstrings hsymbols
      hbuilt.count_ne hvalid.1 hvalid.2 loadBias none
    constructor
    · intro hsome
      obtain ⟨gnu, hgnu⟩ := Option.isSome_iff_exists.mp hsome
      have heq : lookup = (query.lookupGnu gnu).under o := hlookupGnu gnu hgnu
      rw [heq]
      exact LookupQuery.lookupGnu_settled (hbuilt.gnu gnu hgnu) fun i hne hi =>
        settled_of_subset (by decide) (hcandidates i hne hi)
    · intro sysv hgnu hsysv
      obtain ⟨hindexed, hcount⟩ := hbuilt.sysv sysv hsysv
      have heq : lookup = (query.lookupSysv sysv).under o := hlookupSysv sysv hgnu hsysv
      rw [heq]
      constructor
      · exact LookupQuery.lookupSysv_settled hindexed hcount fun i hne hi =>
          settled_of_subset (by decide) (hcandidates i hne hi)
      · rw [LookupQuery.lookupSysv_invalidHashChain_iff hindexed hcount hbuilt.count_ne hcandidates]
        exact (and_iff_right hvalid).symm

/-- A string table with the name `a`, a symbol table with two symbols of this name, and
a SysV table whose one chain leads from the first to the second and back. -/
def cyclicMemory : MappedGuestMemory :=
  (GuestMemory.write (vacantMemory.map 0x1000 4096 (.read ||| .write)).2 0x1000 ([0, 97, 0, 0]
    ++ List.replicate 16 0
    ++ [1, 0, 0, 0, 0x10, 0, 0, 0, 4, 0, 0, 0, 0x12, 0, 1, 0]
    ++ [1, 0, 0, 0, 0x20, 0, 0, 0, 4, 0, 0, 0, 0x12, 0, 1, 0]
    ++ encodeU32Le 1 ++ encodeU32Le 3 ++ encodeU32Le 1
    ++ encodeU32Le 0 ++ encodeU32Le 2 ++ encodeU32Le 1)).2

def cyclicMetadata : Elf32LinkerMetadata where
  stringTable := some ⟨0x1000, 3⟩
  symbolTable := some ⟨0x1004, 16⟩
  sysvHashTable := some ⟨0x1034⟩

def cyclicSysv : Elf32SysvHashIndex where
  bucketCount := 1
  chainCount := 3
  bucketsGuestAddress := 0x103c
  chainsGuestAddress := 0x1040

theorem indexed_lookup_cyclic :
    (lookupElf32Symbol 0 cyclicMetadata { symbolCount := 3, sysvHash := some cyclicSysv } [98]
        collidingQuery.options).under (GuestMemory.reads cyclicMemory)
      = .error { error := .invalidHashChain }
    ∧ ∀ k, cyclicSysv.walked (GuestMemory.reads cyclicMemory) [98] k ≠ 0 := by
  have hbuild : (buildElf32SymbolIndex cyclicMetadata collidingQuery.options).under
      (GuestMemory.reads cyclicMemory)
        = .ok { symbolCount := 3, sysvHash := some cyclicSysv } := by decide +kernel
  have hlookup : (lookupElf32Symbol 0 cyclicMetadata
      { symbolCount := 3, sysvHash := some cyclicSysv } [98]
      collidingQuery.options).under (GuestMemory.reads cyclicMemory)
        = .error { error := .invalidHashChain } := by decide +kernel
  obtain ⟨-, hcyclic⟩ := (indexed_lookup hbuild rfl rfl 0 [98] collidingQuery.options).2
    cyclicSysv rfl rfl
  obtain ⟨-, hwalk⟩ := hcyclic.mp ⟨_, hlookup, rfl⟩
  exact ⟨hlookup, fun k => (hwalk k).1⟩

end LibA32Android
