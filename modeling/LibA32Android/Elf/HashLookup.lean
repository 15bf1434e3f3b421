/-
Hash-directed lookup is a linear scan.

* `LookupQuery.linearScan`: the symbols 1 to n - 1 of an object tried in order;
* `GnuWellFormed`, `SysvWellFormed`: hash tables in memory that fit the names of
  the symbols;
* `lookupGnu_eq_linearScan`: through a well-formed GNU table the scan is found
  for every name;
* `lookupSysv_eq_linearScan`: through a well-formed SysV table, whose chains may
  be in any order, for every name that at most one symbol answers to;
* `hashLookup_linearScan_tls`: a symbol of an unsupported kind answers to its name
  whatever its version is.
-/
import LibA32Android.Elf.SymbolLookup
import LibA32Android.Foundations.FirstHit

namespace LibA32Android

open Foundations QueryProgram

/-- The reads that a memory answers. -/
abbrev ReadOracle := UInt32 × ℕ → Option (List UInt8)

lemma toNat_ofNat_of_lt_count {count : UInt32} {i : ℕ} (hi : i < count.toNat) :
    (UInt32.ofNat i).toNat = i :=
  UInt32.toNat_ofNat_of_lt' (hi.trans count.toNat_lt)

lemma ofNat_add_one (s : ℕ) : UInt32.ofNat s + 1 = UInt32.ofNat (s + 1) := by
  rw [UInt32.ofNat_add]
  rfl

/-! ### Words of a table -/

/-- The word at an index of a table. -/
def indexedWord (o : ReadOracle) (base : UInt32) (index : ℕ) : Option UInt32 :=
  (checkedAddGuestAddress base (index * 4)).bind fun address =>
    (o (address, 4)).map (decodeU32Le · 0)

section Words

variable {o : ReadOracle} {ε : Type} {base index word : UInt32}

lemma readIndexedWord_under :
    (readIndexedWord base index : GuestRead ε _).under o
      = .ok (indexedWord o base index.toNat) := by
  rw [readIndexedWord, indexedWord]
  cases checkedAddGuestAddress base (index.toNat * 4) with
  | none => rfl
  | some address => simp [readU32, readBytes]

lemma wordOr_ok_iff {e : ε} : (wordOr e (readIndexedWord base index)).under o = .ok word
    ↔ indexedWord o base index.toNat = some word := by
  rw [wordOr, under_bind, readIndexedWord_under, ok_bind]
  cases indexedWord o base index.toNat with
  | none => simp
  | some value => simp

lemma wordOr_under (h : indexedWord o base index.toNat = some word) (e : ε) :
    (wordOr e (readIndexedWord base index)).under o = .ok word :=
  wordOr_ok_iff.mpr h

end Words

/-! ### The scan -/

namespace LookupQuery

variable (query : LookupQuery) (o : ReadOracle)

/-- What the symbol at an index says about the name; `.ok none` is a miss. -/
def evaluation (i : ℕ) : Except Elf32SymbolLookupFailure (Option Elf32ResolvedSymbol) :=
  (query.evaluateCandidate (UInt32.ofNat i)).under o

/-- The symbols 1 to n - 1 tried in order. -/
def linearScan : Except Elf32SymbolLookupFailure Elf32ResolvedSymbol :=
  firstHit (query.evaluation o) { error := .symbolNotFound }
    (List.range' 1 (query.symbolCount.toNat - 1))

/-- The symbols 1 to n - 1 are readable, and `names` are their names, within
`max_name_bytes`. -/
def NamesReadable (names : ℕ → ByteString) : Prop :=
  ∀ i < query.symbolCount.toNat, 0 < i → ∃ bytes,
    (readSymbolBytes query.symbolTable (UInt32.ofNat i) :
      GuestRead Elf32SymbolLookupFailure _).under o = .ok (some bytes)
    ∧ (readElf32StringTableEntry query.stringTable (decodeSymbol bytes).nameOffset
        { maxStringBytes := query.options.maxNameBytes }).under o = .ok (names i)

/-- The version of the symbol at an index is not the one asked for. -/
def VersionMismatch (i : ℕ) : Prop :=
  (matchElf32SymbolVersion query.metadata (UInt32.ofNat i) query.requirement
    (versionOptions query.options)).under o = .ok false

/-- A miss: another name, a symbol that is LOCAL, UNDEF, INTERNAL or HIDDEN, or
another version.  A symbol of the name that has an unsupported kind is an error of
the lookup before its version is looked at, so it is no miss. -/
def Misses (names : ℕ → ByteString) (i : ℕ) : Prop :=
  names i ≠ query.name ∨ ∃ bytes,
    (readSymbolBytes query.symbolTable (UInt32.ofNat i) :
      GuestRead Elf32SymbolLookupFailure _).under o = .ok (some bytes)
    ∧ ((decodeSymbol bytes).isPrivate
      ∨ (((decodeSymbol bytes).binding = 1 ∨ (decodeSymbol bytes).binding = 2)
        ∧ checkSupported (decodeSymbol bytes) bytes = .ok () ∧ query.VersionMismatch o i))

/-- A miss if versions came first: another name, a symbol that is LOCAL, UNDEF,
INTERNAL or HIDDEN, or another version, of a symbol of whatever kind. -/
def LooselyMisses (names : ℕ → ByteString) (i : ℕ) : Prop :=
  names i ≠ query.name
    ∨ (∃ bytes, (readSymbolBytes query.symbolTable (UInt32.ofNat i) :
        GuestRead Elf32SymbolLookupFailure _).under o = .ok (some bytes)
      ∧ (decodeSymbol bytes).isPrivate)
    ∨ query.VersionMismatch o i

variable {query o}

lemma orElse_under (symbolIndex : UInt32)
    (next : GuestRead Elf32SymbolLookupFailure Elf32ResolvedSymbol) :
    (query.orElse symbolIndex next).under o
      = orNext ((query.evaluateCandidate symbolIndex).under o) (next.under o) := by
  rw [orElse, under_bind]
  rcases (query.evaluateCandidate symbolIndex).under o with e | _ | result
  · rfl
  · rfl
  · rfl

variable {names : ℕ → ByteString} {i : ℕ}

/-- What a readable symbol says: its name and the private symbols come first. -/
lemma evaluation_eq (hi : i < query.symbolCount.toNat) (hpos : 0 < i) {bytes : List UInt8}
    (hbytes : (readSymbolBytes query.symbolTable (UInt32.ofNat i) :
      GuestRead Elf32SymbolLookupFailure _).under o = .ok (some bytes))
    {symbolName : ByteString}
    (hname : (readElf32StringTableEntry query.stringTable (decodeSymbol bytes).nameOffset
      { maxStringBytes := query.options.maxNameBytes }).under o = .ok symbolName) :
    query.evaluation o i
      = if symbolName ≠ query.name then .ok none
        else if (decodeSymbol bytes).isPrivate then .ok none
        else (query.evaluateDefinition (UInt32.ofNat i) (decodeSymbol bytes)
          symbolName).under o := by
  have hindex := toNat_ofNat_of_lt_count hi
  have hzero : ¬(UInt32.ofNat i = 0 ∨ UInt32.ofNat i ≥ query.symbolCount) := by
    rw [← UInt32.toNat_inj, ge_iff_le, UInt32.le_iff_toNat_le, hindex]
    simp
    omega
  simp only [evaluation, evaluateCandidate, readSymbol, under_bind, under_reject,
    refuse_neg hzero, ok_bind, hbytes, under_pure, Option.map_some, under_mapError, hname,
    under_ite, Except.mapError]

/-- A definition is passed over for its version only. -/
lemma evaluateDefinition_eq_none_iff {bytes : List UInt8}
    (hbytes : (readSymbolBytes query.symbolTable (UInt32.ofNat i) :
      GuestRead Elf32SymbolLookupFailure _).under o = .ok (some bytes))
    (symbol : Elf32Symbol) (symbolName : ByteString) :
    (query.evaluateDefinition (UInt32.ofNat i) symbol symbolName).under o = .ok none
      ↔ (symbol.binding = 1 ∨ symbol.binding = 2) ∧ checkSupported symbol bytes = .ok ()
        ∧ query.VersionMismatch o i := by
  rw [evaluateDefinition, VersionMismatch]
  by_cases hbinding : symbol.binding ≠ 1 ∧ symbol.binding ≠ 2
  · simp [hbinding]
  · have hbinding' : symbol.binding = 1 ∨ symbol.binding = 2 := by tauto
    simp only [under_bind, under_reject, refuse_neg hbinding, ok_bind, hbytes, under_ofExcept,
      hbinding', true_and]
    rcases checkSupported symbol bytes with e | _
    · simp
    · simp only [ok_bind, under_mapError, true_and]
      rcases (matchElf32SymbolVersion query.metadata (UInt32.ofNat i) query.requirement
        (versionOptions query.options)).under o with e | _ | _
      · simp [Except.mapError]
      · simp [Except.mapError]
      · rcases symbolGuestValue query.loadBias symbol with e | value
        · simp [Except.mapError]
        · simp [Except.mapError]

/-- **Misses**, in the words of the symbol table. -/
lemma evaluation_eq_none_iff (hnames : query.NamesReadable o names)
    (hi : i < query.symbolCount.toNat) (hpos : 0 < i) :
    query.evaluation o i = .ok none ↔ query.Misses o names i := by
  obtain ⟨bytes, hbytes, hname⟩ := hnames i hi hpos
  have hread : ∀ bytes', (readSymbolBytes query.symbolTable (UInt32.ofNat i) :
      GuestRead Elf32SymbolLookupFailure _).under o = .ok (some bytes') ↔ bytes' = bytes := by
    simp [hbytes, eq_comm]
  simp only [Misses, evaluation_eq hi hpos hbytes hname, hread, exists_eq_left]
  by_cases hother : names i ≠ query.name
  · simp [hother]
  · by_cases hprivate : (decodeSymbol bytes).isPrivate = true
    · simp [hprivate]
    · simp only [hother, hprivate, Bool.false_eq_true, if_false, false_or]
      exact evaluateDefinition_eq_none_iff hbytes _ _

lemma evaluation_of_name_ne (hnames : query.NamesReadable o names)
    (hi : i < query.symbolCount.toNat) (hpos : 0 < i) (hne : names i ≠ query.name) :
    query.evaluation o i = .ok none :=
  (evaluation_eq_none_iff hnames hi hpos).mpr (.inl hne)

end LookupQuery

/-! ### The GNU table -/

/-- A word of the GNU chains: the hash of the symbol, bit 0 replaced by the end of
its group. -/
def gnuChainWord (hash : UInt32) (last : Bool) : UInt32 :=
  (hash &&& ~~~1) ||| (if last then 1 else 0)

lemma and_not_or (x y : UInt32) : (x &&& ~~~y) ||| y = x ||| y := by
  rw [← UInt32.toBitVec_inj]
  ext i hi
  simp only [UInt32.toBitVec_or, UInt32.toBitVec_and, UInt32.toBitVec_not, BitVec.getElem_or,
    BitVec.getElem_and, BitVec.getElem_not]
  cases x.toBitVec[i] <;> simp

lemma gnuChainWord_or_one (hash : UInt32) (last : Bool) :
    gnuChainWord hash last ||| 1 = hash ||| 1 := by
  cases last with
  | false => rw [gnuChainWord, if_neg Bool.false_ne_true, UInt32.or_zero, and_not_or]
  | true => rw [gnuChainWord, if_pos rfl, UInt32.or_assoc, UInt32.or_self, and_not_or]

lemma gnuChainWord_and_one (hash : UInt32) (last : Bool) :
    gnuChainWord hash last &&& 1 = if last then 1 else 0 := by
  rw [gnuChainWord, ← UInt32.toBitVec_inj]
  ext i hi
  cases last <;> by_cases h : i = 0 <;> simp [BitVec.getElem_one, h]

/-- The mask of a power of two takes the remainder. -/
lemma toNat_and_sub_one {count : UInt32} {k : ℕ} (hcount : count.toNat = 2 ^ k) (x : UInt32) :
    (x &&& (count - 1)).toNat = x.toNat % count.toNat := by
  have hone : (1 : UInt32) ≤ count := by
    rw [UInt32.le_iff_toNat_le, hcount]
    exact Nat.one_le_two_pow
  rw [UInt32.toNat_and, UInt32.toNat_sub_of_le _ _ hone, hcount]
  exact Nat.and_two_pow_sub_one_eq_mod _ _

/-- The bucket of a name. -/
def Elf32GnuHashIndex.bucket (gnu : Elf32GnuHashIndex) (name : ByteString) : ℕ :=
  (gnuHash name).toNat % gnu.bucketCount.toNat

/-- The symbol at `i` is the last one of its group. -/
def Elf32GnuHashIndex.endsGroup (gnu : Elf32GnuHashIndex) (n : ℕ) (names : ℕ → ByteString)
    (i : ℕ) : Bool :=
  i + 1 = n ∨ gnu.bucket (names (i + 1)) ≠ gnu.bucket (names i)

/-- The first symbol of a group, or 0. -/
def Elf32GnuHashIndex.firstOf (gnu : Elf32GnuHashIndex) (n : ℕ) (names : ℕ → ByteString)
    (b : ℕ) : ℕ :=
  ((List.range' gnu.symbolOffset.toNat (n - gnu.symbolOffset.toNat)).find?
    fun i => gnu.bucket (names i) = b).getD 0

/-- A GNU table that fits the names of the symbols from `symoffset` to `n - 1`; the
checks of `build_elf32_symbol_index` on its header come first. -/
structure GnuWellFormed (o : ReadOracle) (gnu : Elf32GnuHashIndex) (n : ℕ)
    (names : ℕ → ByteString) : Prop where
  bucketCount_ne : gnu.bucketCount ≠ 0
  symbolOffset_ne : gnu.symbolOffset ≠ 0
  bloomWords : ∃ k, gnu.bloomWordCount.toNat = 2 ^ k
  bloomShift_lt : gnu.bloomShift < 32
  grouped : ∀ j < n, ∀ i ≤ j, gnu.symbolOffset.toNat ≤ i →
    gnu.bucket (names i) ≤ gnu.bucket (names j)
  buckets : ∀ b < gnu.bucketCount.toNat,
    indexedWord o gnu.bucketsGuestAddress b = some (UInt32.ofNat (gnu.firstOf n names b))
  chains : ∀ i < n, gnu.symbolOffset.toNat ≤ i →
    indexedWord o gnu.chainsGuestAddress (i - gnu.symbolOffset.toNat)
      = some (gnuChainWord (gnuHash (names i)) (gnu.endsGroup n names i))
  bloomReadable : ∀ k < gnu.bloomWordCount.toNat,
    (indexedWord o gnu.bloomGuestAddress k).isSome
  bloom : ∀ i < n, gnu.symbolOffset.toNat ≤ i →
    ∀ word ∈ indexedWord o gnu.bloomGuestAddress
        ((gnuHash (names i)).toNat / 32 % gnu.bloomWordCount.toNat),
      word &&& (1 <<< (gnuHash (names i) % 32)) ≠ 0
      ∧ word &&& (1 <<< ((gnuHash (names i) >>> gnu.bloomShift) % 32)) ≠ 0

namespace GnuWellFormed

variable {o : ReadOracle} {gnu : Elf32GnuHashIndex} {n : ℕ} {names : ℕ → ByteString}

lemma bucket_lt (h : GnuWellFormed o gnu n names) (name : ByteString) :
    gnu.bucket name < gnu.bucketCount.toNat := by
  refine Nat.mod_lt _ (Nat.pos_of_ne_zero fun h0 => h.bucketCount_ne ?_)
  exact UInt32.toNat_inj.mp h0

/-- The first symbol of a group that is not empty. -/
lemma firstOf_spec {b : ℕ} (hfirst : gnu.firstOf n names b ≠ 0) :
    gnu.symbolOffset.toNat ≤ gnu.firstOf n names b ∧ gnu.firstOf n names b < n
      ∧ gnu.bucket (names (gnu.firstOf n names b)) = b
      ∧ ∀ i < gnu.firstOf n names b, gnu.symbolOffset.toNat ≤ i → gnu.bucket (names i) ≠ b := by
  rw [Elf32GnuHashIndex.firstOf] at hfirst ⊢
  cases hfind : (List.range' gnu.symbolOffset.toNat (n - gnu.symbolOffset.toNat)).find?
      fun i => gnu.bucket (names i) = b with
  | none =>
      rw [hfind] at hfirst
      exact absurd rfl hfirst
  | some first =>
      obtain ⟨hbucket, hmem, hbefore⟩ := List.find?_range'_eq_some.mp hfind
      rw [List.mem_range'_1] at hmem
      refine ⟨hmem.1, by rw [Option.getD_some]; omega, of_decide_eq_true hbucket, ?_⟩
      intro i hi hoffset
      simpa using hbefore i hoffset hi

/-- An empty group. -/
lemma bucket_ne_of_firstOf (hne : gnu.symbolOffset ≠ 0) {b : ℕ}
    (hfirst : gnu.firstOf n names b = 0) {i : ℕ} (hi : i < n)
    (hoffset : gnu.symbolOffset.toNat ≤ i) : gnu.bucket (names i) ≠ b := by
  have hpos : gnu.symbolOffset.toNat ≠ 0 := fun h0 => hne (UInt32.toNat_inj.mp h0)
  rw [Elf32GnuHashIndex.firstOf] at hfirst
  cases hfind : (List.range' gnu.symbolOffset.toNat (n - gnu.symbolOffset.toNat)).find?
      fun i => gnu.bucket (names i) = b with
  | none =>
      have hmem : i ∈ List.range' gnu.symbolOffset.toNat (n - gnu.symbolOffset.toNat) := by
        rw [List.mem_range'_1]
        omega
      simpa using List.find?_eq_none.mp hfind i hmem
  | some first =>
      rw [hfind, Option.getD_some] at hfirst
      have hmem := (List.find?_range'_eq_some.mp hfind).2.1
      rw [List.mem_range'_1] at hmem
      omega

/-- Behind the end of a group there are other groups only. -/
lemma bucket_ne_of_endsGroup (h : GnuWellFormed o gnu n names) {i j : ℕ}
    (hoffset : gnu.symbolOffset.toNat ≤ i) (hends : gnu.endsGroup n names i) (hij : i < j)
    (hj : j < n) : gnu.bucket (names j) ≠ gnu.bucket (names i) := by
  have hnext : gnu.bucket (names (i + 1)) ≠ gnu.bucket (names i) := by
    rw [Elf32GnuHashIndex.endsGroup, decide_eq_true_eq] at hends
    exact hends.resolve_left (by omega)
  have hstep := h.grouped (i + 1) (by omega) i (by omega) hoffset
  have hrest := h.grouped j hj (i + 1) (by omega) (by omega)
  omega

end GnuWellFormed

namespace LookupQuery

variable {query : LookupQuery} {o : ReadOracle} {gnu : Elf32GnuHashIndex}
  {names : ℕ → ByteString}

/-- A symbol whose name has another GNU hash, or another bucket, misses. -/
lemma evaluation_of_bucket_ne (hnames : query.NamesReadable o names) {i : ℕ}
    (hi : i < query.symbolCount.toNat) (hpos : 0 < i)
    (hne : gnu.bucket (names i) ≠ gnu.bucket query.name) :
    query.evaluation o i = .ok none :=
  evaluation_of_name_ne hnames hi hpos fun h => hne (congrArg gnu.bucket h)

/-- Behind the end of the group of the name every symbol misses. -/
lemma evaluation_behind_group (hwf : GnuWellFormed o gnu query.symbolCount.toNat names)
    (hnames : query.NamesReadable o names) {s i : ℕ} (hle : gnu.symbolOffset.toNat ≤ s)
    (hbucket : gnu.bucket (names s) = gnu.bucket query.name)
    (hends : gnu.endsGroup query.symbolCount.toNat names s) (hsi : s < i)
    (hi : i < query.symbolCount.toNat) : query.evaluation o i = .ok none := by
  have hne := hwf.bucket_ne_of_endsGroup hle hends hsi hi
  rw [hbucket] at hne
  exact evaluation_of_bucket_ne hnames hi (by omega) hne

/-- **The chain walk** from a symbol of the group of the name scans all symbols from
there on: behind the end of the group there is no symbol of the name. -/
lemma walkGnuChain_under (hwf : GnuWellFormed o gnu query.symbolCount.toNat names)
    (hnames : query.NamesReadable o names) :
    ∀ rounds s, s + rounds = query.symbolCount.toNat → 0 < rounds →
      gnu.symbolOffset.toNat ≤ s → gnu.bucket (names s) = gnu.bucket query.name →
      (query.walkGnuChain gnu (gnuHash query.name) rounds (UInt32.ofNat s)).under o
        = firstHit (query.evaluation o) { error := .symbolNotFound } (List.range' s rounds) := by
  have hoffset := Nat.pos_of_ne_zero fun h0 => hwf.symbolOffset_ne (UInt32.toNat_inj.mp h0)
  intro rounds
  induction rounds with
  | zero =>
      intro s _ hpos
      exact absurd hpos (lt_irrefl 0)
  | succ rounds ih =>
      intro s hs _ hle hbucket
      have hlt : s < query.symbolCount.toNat := by omega
      have hs' := toNat_ofNat_of_lt_count hlt
      have hword : indexedWord o gnu.chainsGuestAddress (UInt32.ofNat s - gnu.symbolOffset).toNat
          = some (gnuChainWord (gnuHash (names s))
              (gnu.endsGroup query.symbolCount.toNat names s)) := by
        have hle' : gnu.symbolOffset ≤ UInt32.ofNat s := by
          rw [UInt32.le_iff_toNat_le, hs']
          exact hle
        rw [UInt32.toNat_sub_of_le _ _ hle', hs']
        exact hwf.chains s hlt hle
      -- what comes after this symbol
      have hnext : (if gnuChainWord (gnuHash (names s))
              (gnu.endsGroup query.symbolCount.toNat names s) &&& 1 ≠ 0 then
            (.fail { error := .symbolNotFound } : GuestRead Elf32SymbolLookupFailure _)
          else query.walkGnuChain gnu (gnuHash query.name) rounds (UInt32.ofNat s + 1)).under o
          = firstHit (query.evaluation o) { error := .symbolNotFound }
              (List.range' (s + 1) rounds) := by
        rw [gnuChainWord_and_one]
        cases hends : gnu.endsGroup query.symbolCount.toNat names s with
        | true =>
            refine Eq.trans rfl (firstHit_of_miss fun i hi => ?_).symm
            rw [List.mem_range'_1] at hi
            exact evaluation_behind_group hwf hnames hle hbucket hends (by omega) (by omega)
        | false =>
            rw [Elf32GnuHashIndex.endsGroup, decide_eq_false_iff_not] at hends
            push Not at hends
            simp only [Bool.false_eq_true, if_false, ne_eq, not_true_eq_false, ofNat_add_one]
            exact ih (s + 1) (by omega) (by omega) (by omega) (hends.2.trans hbucket)
      rw [walkGnuChain, under_bind, wordOr_under hword, ok_bind, gnuChainWord_or_one,
        List.range'_succ, firstHit]
      by_cases hhash : gnuHash (names s) ||| 1 = gnuHash query.name ||| 1
      · rw [if_pos hhash, orElse_under, hnext]
        rfl
      · have hother : names s ≠ query.name := fun h => hhash (by rw [h])
        rw [if_neg hhash, hnext, evaluation_of_name_ne hnames hlt (by omega) hother, orNext_miss]

/-- The symbols without a hash miss. -/
def UnhashedMiss (query : LookupQuery) (o : ReadOracle) (names : ℕ → ByteString)
    (gnu : Elf32GnuHashIndex) : Prop :=
  ∀ i < query.symbolCount.toNat, 0 < i → i < gnu.symbolOffset.toNat → query.Misses o names i

/-- Without a hashed symbol of the name the scan finds nothing. -/
lemma linearScan_of_names_ne (hnames : query.NamesReadable o names)
    (hunhashed : query.UnhashedMiss o names gnu)
    (hne : ∀ i < query.symbolCount.toNat, gnu.symbolOffset.toNat ≤ i → names i ≠ query.name) :
    query.linearScan o = .error { error := .symbolNotFound } := by
  refine firstHit_of_miss fun i hi => ?_
  rw [List.mem_range'_1] at hi
  by_cases hhashed : i < gnu.symbolOffset.toNat
  · exact (evaluation_eq_none_iff hnames (by omega) (by omega)).mpr
      (hunhashed i (by omega) (by omega) hhashed)
  · exact evaluation_of_name_ne hnames (by omega) (by omega) (hne i (by omega) (by omega))

/-- The scan may start at the first symbol of the group of the name. -/
lemma linearScan_from_first (hnames : query.NamesReadable o names)
    (hunhashed : query.UnhashedMiss o names gnu) {first : ℕ} (hpos : 0 < first)
    (hfirst : first < query.symbolCount.toNat)
    (hbefore : ∀ i < first, gnu.symbolOffset.toNat ≤ i →
      gnu.bucket (names i) ≠ gnu.bucket query.name) :
    query.linearScan o = firstHit (query.evaluation o) { error := .symbolNotFound }
      (List.range' first (query.symbolCount.toNat - first)) := by
  have hsplit : List.range' 1 (query.symbolCount.toNat - 1)
      = List.range' 1 (first - 1) ++ List.range' first (query.symbolCount.toNat - first) := by
    have happend : List.range' 1 (first - 1)
          ++ List.range' (1 + (first - 1)) (query.symbolCount.toNat - first)
        = List.range' 1 (first - 1 + (query.symbolCount.toNat - first)) := List.range'_append_1
    rw [show 1 + (first - 1) = first by omega,
      show first - 1 + (query.symbolCount.toNat - first) = query.symbolCount.toNat - 1 by omega]
      at happend
    exact happend.symm
  rw [linearScan, hsplit]
  refine firstHit_append_of_miss fun i hi => ?_
  rw [List.mem_range'_1] at hi
  by_cases hhashed : i < gnu.symbolOffset.toNat
  · exact (evaluation_eq_none_iff hnames (by omega) (by omega)).mpr
      (hunhashed i (by omega) (by omega) hhashed)
  · exact evaluation_of_bucket_ne hnames (by omega) (by omega) (hbefore i (by omega) (by omega))

/-- The word of the bloom filter for the name, and the bits that a symbol of the
name has set in it. -/
lemma bloomWord (query : LookupQuery)
    (hwf : GnuWellFormed o gnu query.symbolCount.toNat names) :
    ∃ word, indexedWord o gnu.bloomGuestAddress
        (gnuHash query.name / 32 &&& (gnu.bloomWordCount - 1)).toNat = some word
      ∧ ∀ i < query.symbolCount.toNat, gnu.symbolOffset.toNat ≤ i → names i = query.name →
        word &&& (1 <<< (gnuHash query.name % 32)) ≠ 0
        ∧ word &&& (1 <<< ((gnuHash query.name >>> gnu.bloomShift) % 32)) ≠ 0 := by
  obtain ⟨k, hk⟩ := hwf.bloomWords
  have hindex : (gnuHash query.name / 32 &&& (gnu.bloomWordCount - 1)).toNat
      = (gnuHash query.name).toNat / 32 % gnu.bloomWordCount.toNat := by
    rw [toNat_and_sub_one hk, UInt32.toNat_div]
    rfl
  have hlt : (gnuHash query.name).toNat / 32 % gnu.bloomWordCount.toNat
      < gnu.bloomWordCount.toNat := Nat.mod_lt _ (hk ▸ Nat.two_pow_pos k)
  obtain ⟨word, hword⟩ := Option.isSome_iff_exists.mp (hwf.bloomReadable _ hlt)
  refine ⟨word, hindex ▸ hword, fun i hi hle hname => ?_⟩
  have hset := hwf.bloom i hi hle word
  rw [hname] at hset
  exact hset hword

/-- **Lookup through a GNU table** is the linear scan. -/
theorem lookupGnu_eq_linearScan (hwf : GnuWellFormed o gnu query.symbolCount.toNat names)
    (hnames : query.NamesReadable o names) (hunhashed : query.UnhashedMiss o names gnu) :
    (query.lookupGnu gnu).under o = query.linearScan o := by
  have hoffset := Nat.pos_of_ne_zero fun h0 => hwf.symbolOffset_ne (UInt32.toNat_inj.mp h0)
  obtain ⟨word, hword, hbits⟩ := bloomWord query hwf
  have hbucket : indexedWord o gnu.bucketsGuestAddress (gnuHash query.name % gnu.bucketCount).toNat
      = some (UInt32.ofNat
        (gnu.firstOf query.symbolCount.toNat names (gnu.bucket query.name))) := by
    rw [UInt32.toNat_mod]
    exact hwf.buckets _ (hwf.bucket_lt query.name)
  rw [lookupGnu, under_bind, wordOr_under hword, ok_bind, under_bind, under_reject]
  by_cases hmissing : word &&& (1 <<< (gnuHash query.name % 32)) = 0
      ∨ word &&& (1 <<< ((gnuHash query.name >>> gnu.bloomShift) % 32)) = 0
  · rw [refuse_pos hmissing, error_bind, linearScan_of_names_ne hnames hunhashed]
    intro i hi hle hname
    exact hmissing.elim (hbits i hi hle hname).1 (hbits i hi hle hname).2
  rw [refuse_neg hmissing, ok_bind, under_bind, wordOr_under hbucket, ok_bind, under_bind,
    under_reject]
  by_cases hempty : gnu.firstOf query.symbolCount.toNat names (gnu.bucket query.name) = 0
  · have hzero : UInt32.ofNat (gnu.firstOf query.symbolCount.toNat names
        (gnu.bucket query.name)) = 0 := by
      rw [hempty]
      rfl
    rw [refuse_pos hzero, error_bind, linearScan_of_names_ne hnames hunhashed]
    intro i hi hle hname
    exact GnuWellFormed.bucket_ne_of_firstOf hwf.symbolOffset_ne hempty hi hle
      (congrArg gnu.bucket hname)
  · obtain ⟨hle, hlt, hgroup, hbefore⟩ := GnuWellFormed.firstOf_spec hempty
    generalize gnu.firstOf query.symbolCount.toNat names (gnu.bucket query.name) = first at *
    have hfirst := toNat_ofNat_of_lt_count hlt
    have hne : ¬UInt32.ofNat first = 0 := by
      rw [← UInt32.toNat_inj, hfirst]
      exact hempty
    have hin :
        ¬(UInt32.ofNat first < gnu.symbolOffset ∨ UInt32.ofNat first ≥ query.symbolCount) := by
      rw [UInt32.lt_iff_toNat_lt, ge_iff_le, UInt32.le_iff_toNat_le, hfirst]
      omega
    rw [refuse_neg hne, ok_bind, under_bind, under_reject, refuse_neg hin, ok_bind, hfirst,
      walkGnuChain_under hwf hnames _ _ (by omega) (by omega) hle hgroup,
      linearScan_from_first hnames hunhashed (by omega) hlt hbefore]

end LookupQuery

/-! ### The SysV table -/

/-- The chain word of a symbol. -/
def Elf32SysvHashIndex.next (sysv : Elf32SysvHashIndex) (o : ReadOracle) (i : ℕ) : Option ℕ :=
  (indexedWord o sysv.chainsGuestAddress i).map UInt32.toNat

/-- A SysV table that fits the names of the symbols 1 to `n - 1`: every bucket starts
a chain of symbols that ends in 0, and every symbol is on the chain of its bucket. -/
structure SysvWellFormed (o : ReadOracle) (sysv : Elf32SysvHashIndex) (n : ℕ)
    (names : ℕ → ByteString) : Prop where
  bucketCount_ne : sysv.bucketCount ≠ 0
  chains : ∀ b < sysv.bucketCount.toNat, ∃ first chain,
    indexedWord o sysv.bucketsGuestAddress b = some first
    ∧ LinkedFrom (sysv.next o) 0 first.toNat chain
    ∧ (∀ i ∈ chain, i < n)
    ∧ ∀ i < n, 0 < i → (sysvHash (names i)).toNat % sysv.bucketCount.toNat = b → i ∈ chain

namespace LookupQuery

variable {query : LookupQuery} {o : ReadOracle} {sysv : Elf32SysvHashIndex}
  {names : ℕ → ByteString}

/-- One hop of the chain walk. -/
lemma walkSysvChain_succ {s : ℕ} {next : UInt32} (hs : s < query.symbolCount.toNat) (hne : s ≠ 0)
    (hword : indexedWord o sysv.chainsGuestAddress s = some next)
    (hnext : next.toNat < query.symbolCount.toNat) (hops : ℕ) :
    (query.walkSysvChain sysv (hops + 1) (UInt32.ofNat s)).under o
      = orNext (query.evaluation o s) ((query.walkSysvChain sysv hops next).under o) := by
  have hindex := toNat_ofNat_of_lt_count hs
  have hne' : UInt32.ofNat s ≠ 0 := by
    rw [ne_eq, ← UInt32.toNat_inj, hindex]
    exact hne
  have hin : ¬(next ≥ query.symbolCount ∧ next ≠ 0) := by
    rw [ge_iff_le, UInt32.le_iff_toNat_le]
    omega
  rw [← hindex] at hword
  rw [walkSysvChain, if_neg hne', orElse_under, under_bind, wordOr_under hword, ok_bind,
    under_bind, under_reject, refuse_neg hin, ok_bind]
  rfl

/-- **The chain walk** tries the symbols of the chain in order. -/
lemma walkSysvChain_under {s : ℕ} {chain : List ℕ} (hchain : LinkedFrom (sysv.next o) 0 s chain)
    (hs : s < query.symbolCount.toNat) (hlt : ∀ i ∈ chain, i < query.symbolCount.toNat) {hops : ℕ}
    (hhops : chain.length ≤ hops) :
    (query.walkSysvChain sysv hops (UInt32.ofNat s)).under o
      = firstHit (query.evaluation o) { error := .symbolNotFound } chain := by
  induction hchain generalizing hops with
  | stop =>
      cases hops with
      | zero => rfl
      | succ hops => rfl
  | @link i j chain hi hnext hl ih =>
      rw [List.length_cons] at hhops
      obtain ⟨hops, rfl⟩ : ∃ k, hops = k + 1 := ⟨hops - 1, by omega⟩
      have hchain : ∀ i ∈ chain, i < query.symbolCount.toNat := fun k hk =>
        hlt k (List.mem_cons_of_mem i hk)
      have hj : j < query.symbolCount.toNat := by
        cases hl with
        | stop => omega
        | link _ _ _ => exact hchain j List.mem_cons_self
      obtain ⟨next, hword, rfl⟩ := Option.map_eq_some_iff.mp hnext
      have hrest := ih hj hchain (Nat.le_of_succ_le_succ hhops)
      rw [UInt32.ofNat_toNat] at hrest
      rw [walkSysvChain_succ hs hi hword hj, hrest, firstHit]

/-- At most one symbol is not a miss. -/
def AtMostOneHit (query : LookupQuery) (o : ReadOracle) (names : ℕ → ByteString) : Prop :=
  ∀ i < query.symbolCount.toNat, ∀ j < query.symbolCount.toNat, 0 < i → 0 < j →
    ¬query.Misses o names i → ¬query.Misses o names j → i = j

/-- **Lookup through a SysV table** is the linear scan if at most one symbol does
not miss; the order of the chain is then of no importance. -/
theorem lookupSysv_eq_linearScan (hcount : query.symbolCount ≠ 0)
    (hwf : SysvWellFormed o sysv query.symbolCount.toNat names)
    (hnames : query.NamesReadable o names)
    (honce : query.AtMostOneHit o names) :
    (query.lookupSysv sysv).under o = query.linearScan o := by
  have hcount' : 0 < query.symbolCount.toNat :=
    Nat.pos_of_ne_zero fun h0 => hcount (UInt32.toNat_inj.mp h0)
  have hbuckets : 0 < sysv.bucketCount.toNat :=
    Nat.pos_of_ne_zero fun h0 => hwf.bucketCount_ne (UInt32.toNat_inj.mp h0)
  obtain ⟨first, chain, hfirst, hchain, hlt, hmem⟩ :=
    hwf.chains ((sysvHash query.name).toNat % sysv.bucketCount.toNat) (Nat.mod_lt _ hbuckets)
  have hword : indexedWord o sysv.bucketsGuestAddress (sysvHash query.name % sysv.bucketCount).toNat
      = some first := by
    rw [UInt32.toNat_mod]
    exact hfirst
  have hfirst' : first.toNat < query.symbolCount.toNat := by
    generalize first.toNat = s at hchain
    cases hchain with
    | stop => exact hcount'
    | link _ _ _ => exact hlt s List.mem_cons_self
  have hin : ¬(first ≥ query.symbolCount ∧ first ≠ 0) := by
    rw [ge_iff_le, UInt32.le_iff_toNat_le]
    omega
  have hwalk := walkSysvChain_under hchain hfirst' hlt (hchain.length_le hlt)
  rw [UInt32.ofNat_toNat] at hwalk
  rw [lookupSysv, under_bind, wordOr_under hword, ok_bind, under_bind, under_reject,
    refuse_neg hin, ok_bind, hwalk]
  refine firstHit_eq_of_unique ?_ fun i hhit => ?_
  · intro i hi j hj hhit hhit'
    rw [List.mem_range'_1] at hi hj
    rw [ne_eq, evaluation_eq_none_iff hnames (by omega) (by omega)] at hhit hhit'
    exact honce i (by omega) j (by omega) (by omega) (by omega) hhit hhit'
  · rw [List.mem_range'_1]
    constructor
    · intro hi
      refine hmem i (by omega) (by omega) ?_
      by_contra hbucket
      refine hhit (evaluation_of_name_ne hnames (by omega) (by omega) fun h => hbucket ?_)
      rw [h]
    · intro hi
      have := Nat.pos_of_ne_zero (hchain.ne_stop i hi)
      have := hlt i hi
      omega

/-- The answer that the symbols 1 to n - 1 give: what the one that is not a miss
says, or that there is none. -/
def Answers (query : LookupQuery) (o : ReadOracle) (names : ℕ → ByteString)
    (result : Except Elf32SymbolLookupFailure Elf32ResolvedSymbol) : Prop :=
  (∀ i < query.symbolCount.toNat, 0 < i → ¬query.Misses o names i →
    query.evaluation o i = result.map some)
  ∧ ((∀ i < query.symbolCount.toNat, 0 < i → query.Misses o names i) →
    result = .error { error := .symbolNotFound })

lemma linearScan_answers (hnames : query.NamesReadable o names)
    (honce : query.AtMostOneHit o names) : query.Answers o names (query.linearScan o) := by
  constructor
  · intro i hi hpos hhit
    have hout : query.evaluation o i ≠ .ok none := fun h =>
      hhit ((evaluation_eq_none_iff hnames hi hpos).mp h)
    have hmem : i ∈ List.range' 1 (query.symbolCount.toNat - 1) := by
      rw [List.mem_range'_1]
      omega
    rw [linearScan, firstHit_of_mem hmem, map_orNext hout]
    intro j hj hne
    rw [List.mem_range'_1] at hj
    by_contra hj'
    refine hne (honce j (by omega) i hi (by omega) hpos (fun hmiss => hj' ?_) hhit)
    exact (evaluation_eq_none_iff hnames (by omega) (by omega)).mpr hmiss
  · intro hmiss
    refine firstHit_of_miss fun i hi => ?_
    rw [List.mem_range'_1] at hi
    exact (evaluation_eq_none_iff hnames (by omega) (by omega)).mpr
      (hmiss i (by omega) (by omega))

end LookupQuery

/-- **Hash-directed lookup equals a linear scan.**  Let the names of the symbols 1 to
n - 1 be readable, and let at most one of them not be a miss for the name.  A lookup
through a well-formed GNU table, and a lookup through a well-formed SysV table alone,
return what that symbol says, or that the name is not found; so they agree. -/
theorem hashLookup_linearScan {M : Type} [GuestMemory M] (memory : M) (query : LookupQuery)
    (hstrings : query.metadata.stringTable = some query.stringTable)
    (hsymbols : query.metadata.symbolTable = some query.symbolTable)
    (hcount : query.symbolCount ≠ 0) (hlimit : query.options.maxNameBytes ≠ 0)
    (hname : query.name ≠ []) {names : ℕ → ByteString}
    (hnames : query.NamesReadable (GuestMemory.reads memory) names)
    (honce : query.AtMostOneHit (GuestMemory.reads memory) names) :
    let o := GuestMemory.reads memory
    let n := query.symbolCount.toNat
    let lookup := fun index => (lookupElf32SymbolImpl query.loadBias query.metadata index
      query.name query.options query.requirement).under o
    let GnuFits := fun gnu => GnuWellFormed o gnu n names ∧ query.UnhashedMiss o names gnu
    (∀ gnu sysv, GnuFits gnu → query.Answers o names
      (lookup { symbolCount := query.symbolCount, gnuHash := some gnu, sysvHash := sysv }))
    ∧ (∀ sysv, SysvWellFormed o sysv n names → query.Answers o names
      (lookup { symbolCount := query.symbolCount, sysvHash := some sysv }))
    ∧ ∀ gnu sysv sysv', GnuFits gnu → SysvWellFormed o sysv' n names →
      lookup { symbolCount := query.symbolCount, gnuHash := some gnu, sysvHash := sysv }
        = lookup { symbolCount := query.symbolCount, sysvHash := some sysv' } := by
  intro o n lookup GnuFits
  have hgnu : ∀ gnu sysv, GnuFits gnu →
      lookup { symbolCount := query.symbolCount, gnuHash := some gnu, sysvHash := sysv }
        = query.linearScan o := by
    rintro gnu sysv ⟨hwf, hunhashed⟩
    refine Eq.trans ?_ (query.lookupGnu_eq_linearScan hwf hnames hunhashed)
    simp only [lookup, lookupElf32SymbolImpl, under_bind, under_reject, refuse_neg hlimit,
      refuse_neg hname, ok_bind, hstrings, hsymbols, refuse_neg hcount]
  have hsysv : ∀ sysv, SysvWellFormed o sysv n names →
      lookup { symbolCount := query.symbolCount, sysvHash := some sysv }
        = query.linearScan o := by
    intro sysv hwf
    refine Eq.trans ?_ (query.lookupSysv_eq_linearScan hcount hwf hnames honce)
    simp only [lookup, lookupElf32SymbolImpl, under_bind, under_reject, refuse_neg hlimit,
      refuse_neg hname, ok_bind, hstrings, hsymbols, refuse_neg hcount]
  have hanswers := query.linearScan_answers hnames honce
  refine ⟨fun gnu sysv h => ?_, fun sysv h => ?_, fun gnu sysv sysv' h h' => ?_⟩
  · rw [hgnu gnu sysv h]
    exact hanswers
  · rw [hsysv sysv h]
    exact hanswers
  · rw [hgnu gnu sysv h, hsysv sysv' h']

/-- A string table with two names, a symbol table with a function for each, and the
two hash tables over them.  The GNU hashes of the names differ in bit 0 only, and the
SysV chain holds the symbols in reverse. -/
def collidingMemory : LinearGuestMemory where
  base := 0x1000
  bytes := [0, 97, 0, 98, 0, 0, 0, 0]
    ++ List.replicate 16 0
    ++ [1, 0, 0, 0, 0x10, 0, 0, 0, 4, 0, 0, 0, 0x12, 0, 1, 0]
    ++ [3, 0, 0, 0, 0x20, 0, 0, 0, 4, 0, 0, 0, 0x12, 0, 1, 0]
    ++ encodeU32Le 0xffffffff ++ encodeU32Le 1 ++ encodeU32Le 177670 ++ encodeU32Le 177671
    ++ encodeU32Le 2 ++ encodeU32Le 0 ++ encodeU32Le 0 ++ encodeU32Le 1
  size_le := by decide

def collidingGnu : Elf32GnuHashIndex where
  bucketCount := 1
  symbolOffset := 1
  bloomWordCount := 1
  bloomShift := 5
  bloomGuestAddress := 0x1038
  bucketsGuestAddress := 0x103c
  chainsGuestAddress := 0x1040

def collidingSysv : Elf32SysvHashIndex where
  bucketCount := 1
  chainCount := 3
  bucketsGuestAddress := 0x1048
  chainsGuestAddress := 0x104c

def collidingQuery : LookupQuery where
  loadBias := 0x1000
  metadata :=
    { stringTable := some ⟨0x1000, 5⟩, symbolTable := some ⟨0x1008, 16⟩ }
  stringTable := ⟨0x1000, 5⟩
  symbolTable := ⟨0x1008, 16⟩
  symbolCount := 3
  name := [98]
  options :=
    { maxSymbols := 16, maxHashBuckets := 16, maxGnuBloomWords := 16, maxScopeObjects := 16
      maxNameBytes := 16, maxVersionRecords := 16 }
  requirement := none

theorem hashLookup_linearScan_colliding :
    let lookup := fun index => (lookupElf32Symbol collidingQuery.loadBias collidingQuery.metadata
      index collidingQuery.name collidingQuery.options).under (GuestMemory.reads collidingMemory)
    lookup { symbolCount := 3, gnuHash := some collidingGnu }
        = lookup { symbolCount := 3, sysvHash := some collidingSysv }
      ∧ (lookup { symbolCount := 3, gnuHash := some collidingGnu }).map (·.guestValue)
        = .ok 0x1020 := by
  intro lookup
  have hnames : collidingQuery.NamesReadable (GuestMemory.reads collidingMemory)
      fun i => [96 + UInt8.ofNat i] := by
    intro i hi hpos
    have hi : i < 3 := hi
    interval_cases i
    · exact ⟨_, rfl, rfl⟩
    · exact ⟨_, rfl, rfl⟩
  have honce : collidingQuery.AtMostOneHit (GuestMemory.reads collidingMemory)
      fun i => [96 + UInt8.ofNat i] := by
    intro i hi j hj hi0 hj0 hhit hhit'
    have hi : i < 3 := hi
    have hj : j < 3 := hj
    have hone : i ≠ 1 ∧ j ≠ 1 :=
      ⟨fun h => hhit (.inl (by rw [h]; decide)), fun h => hhit' (.inl (by rw [h]; decide))⟩
    omega
  have h := hashLookup_linearScan collidingMemory collidingQuery rfl rfl (by decide) (by decide)
    (by decide) hnames honce
  have hgnu : GnuWellFormed (GuestMemory.reads collidingMemory) collidingGnu
      collidingQuery.symbolCount.toNat fun i => [96 + UInt8.ofNat i] :=
    { bucketCount_ne := by decide
      symbolOffset_ne := by decide
      bloomWords := ⟨0, rfl⟩
      bloomShift_lt := by decide
      grouped := by decide +kernel
      buckets := by decide +kernel
      chains := by decide +kernel
      bloomReadable := by decide +kernel
      bloom := by
        intro i hi hoffset word hword
        have hi : i < 3 := hi
        have hoffset : 1 ≤ i := hoffset
        interval_cases i
        · obtain rfl : 0xffffffff = word := Option.some.inj hword
          decide
        · obtain rfl : 0xffffffff = word := Option.some.inj hword
          decide }
  have hunhashed : collidingQuery.UnhashedMiss (GuestMemory.reads collidingMemory)
      (fun i => [96 + UInt8.ofNat i]) collidingGnu := by
    intro i _ hpos hlow
    exact absurd hlow (Nat.not_lt.mpr hpos)
  have hsysv : SysvWellFormed (GuestMemory.reads collidingMemory) collidingSysv
      collidingQuery.symbolCount.toNat fun i => [96 + UInt8.ofNat i] := by
    refine ⟨by decide, fun b hb => ?_⟩
    obtain rfl : b = 0 := Nat.lt_one_iff.mp hb
    have hchain : LinkedFrom (collidingSysv.next (GuestMemory.reads collidingMemory)) 0 2 [2, 1] :=
      .link (by decide) rfl (.link (by decide) rfl .stop)
    exact ⟨2, [2, 1], rfl, hchain, by decide, by decide⟩
  have hagree := h.2.2 collidingGnu none collidingSysv ⟨hgnu, hunhashed⟩ hsysv
  refine ⟨hagree, ?_⟩
  exact (congrArg (Except.map (·.guestValue)) hagree).trans rfl

/-- Two symbols of one name with their hash tables and versions: a hidden version of a
thread-local variable, and the base version of a function. -/
def tlsMemory : LinearGuestMemory where
  base := 0x1000
  bytes := [0, 97, 0, 0, 0, 0, 0, 0]
    ++ List.replicate 16 0
    ++ [1, 0, 0, 0, 0x10, 0, 0, 0, 4, 0, 0, 0, 0x16, 0, 1, 0]
    ++ [1, 0, 0, 0, 0x20, 0, 0, 0, 4, 0, 0, 0, 0x12, 0, 1, 0]
    ++ encodeU32Le 0xffffffff ++ encodeU32Le 1 ++ encodeU32Le 177670 ++ encodeU32Le 177671
    ++ encodeU32Le 1 ++ encodeU32Le 0 ++ encodeU32Le 2 ++ encodeU32Le 0
    ++ [0, 0, 0x02, 0x80, 0x01, 0]
  size_le := by decide

def tlsQuery : LookupQuery where
  loadBias := 0x1000
  metadata :=
    { stringTable := some ⟨0x1000, 3⟩
      symbolTable := some ⟨0x1008, 16⟩
      versionSymbolTable := some ⟨0x1058⟩
      hasSymbolVersioning := true }
  stringTable := ⟨0x1000, 3⟩
  symbolTable := ⟨0x1008, 16⟩
  symbolCount := 3
  name := [97]
  options :=
    { maxSymbols := 16, maxHashBuckets := 16, maxGnuBloomWords := 16, maxScopeObjects := 16
      maxNameBytes := 16, maxVersionRecords := 16 }
  requirement := none

/-- The function is a hit. -/
lemma tlsQuery_hit : ¬tlsQuery.LooselyMisses (GuestMemory.reads tlsMemory) (fun _ => [97]) 2 := by
  rintro (hname | ⟨bytes, hbytes, hprivate⟩ | hversion)
  · exact hname rfl
  · have hread : (readSymbolBytes tlsQuery.symbolTable (UInt32.ofNat 2) :
        GuestRead Elf32SymbolLookupFailure _).under (GuestMemory.reads tlsMemory)
        = .ok (some [1, 0, 0, 0, 0x20, 0, 0, 0, 4, 0, 0, 0, 0x12, 0, 1, 0]) := by
      decide +kernel
    rw [hread, Except.ok.injEq, Option.some.injEq] at hbytes
    subst hbytes
    revert hprivate
    decide
  · have hmatch : (matchElf32SymbolVersion tlsQuery.metadata (UInt32.ofNat 2)
        tlsQuery.requirement (versionOptions tlsQuery.options)).under (GuestMemory.reads tlsMemory)
        = .ok true := by
      decide +kernel
    cases hversion.symm.trans hmatch

lemma tls_gnuWellFormed :
    GnuWellFormed (GuestMemory.reads tlsMemory) collidingGnu 3 fun _ => [97] where
  bucketCount_ne := by decide
  symbolOffset_ne := by decide
  bloomWords := ⟨0, rfl⟩
  bloomShift_lt := by decide
  grouped _ _ _ _ _ := le_rfl
  buckets := by decide +kernel
  chains := by decide +kernel
  bloomReadable := by decide +kernel
  bloom := by
    intro i _ _ word hword
    have hbloom : indexedWord (GuestMemory.reads tlsMemory) collidingGnu.bloomGuestAddress
        ((gnuHash [97]).toNat / 32 % collidingGnu.bloomWordCount.toNat)
        = some 0xffffffff := by decide +kernel
    obtain rfl : 0xffffffff = word := Option.some.inj (hbloom.symm.trans hword)
    decide

lemma tls_sysvWellFormed :
    SysvWellFormed (GuestMemory.reads tlsMemory) collidingSysv 3 fun _ => [97] := by
  refine ⟨by decide, fun b hb => ?_⟩
  obtain rfl : b = 0 := Nat.lt_one_iff.mp hb
  have hchain : LinkedFrom (collidingSysv.next (GuestMemory.reads tlsMemory)) 0 1 [1, 2] :=
    .link (by decide) rfl (.link (by decide) rfl .stop)
  exact ⟨1, [1, 2], rfl, hchain, by decide, by decide⟩

/-- **A version decides only between symbols of supported kinds.**  Both tables are well
formed, and the function is the one symbol of the name that has the version asked for.
Both lookups fail at the thread-local variable and do not return the function. -/
theorem hashLookup_linearScan_tls :
    let o := GuestMemory.reads tlsMemory
    let names : ℕ → ByteString := fun _ => [97]
    let lookup := fun index => (lookupElf32Symbol tlsQuery.loadBias tlsQuery.metadata index
      tlsQuery.name tlsQuery.options).under o
    tlsQuery.NamesReadable o names
      ∧ GnuWellFormed o collidingGnu 3 names ∧ SysvWellFormed o collidingSysv 3 names
      ∧ (∀ i < 3, 0 < i → (¬tlsQuery.LooselyMisses o names i ↔ i = 2))
      ∧ (tlsQuery.evaluation o 2).map (Option.map (·.guestValue)) = .ok (some 0x1020)
      ∧ lookup { symbolCount := 3, gnuHash := some collidingGnu }
        = .error { error := .unsupportedType }
      ∧ lookup { symbolCount := 3, sysvHash := some collidingSysv }
        = .error { error := .unsupportedType } := by
  intro o names lookup
  have hmiss : tlsQuery.VersionMismatch o 1 := by
    show _ = _
    decide +kernel
  refine ⟨?_, tls_gnuWellFormed, tls_sysvWellFormed, ?_, by decide +kernel, by decide +kernel,
    by decide +kernel⟩
  · intro i hi hpos
    have hi : i < 3 := hi
    interval_cases i
    · exact ⟨_, rfl, rfl⟩
    · exact ⟨_, rfl, rfl⟩
  · intro i hi hpos
    interval_cases i
    · exact iff_of_false (not_not.mpr (.inr (.inr hmiss))) (by decide)
    · exact iff_of_true tlsQuery_hit rfl

end LibA32Android
