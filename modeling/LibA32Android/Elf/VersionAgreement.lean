/-
A version that is asked for is the one that its definition answers to.

The walks of `elf/linking/elf32_symbol_versioning.cpp` see the `VERDEF` records through
budgets, limits and errors.  Here the records are data in memory, and a walk that
succeeds is a fold over them.

* `Shows`: the reads of a memory show the bytes of an address space;
* `stringAt`, `verdefRecords`, `versionDefinitions`: strings and named `VERDEF`
  records as data;
* `walkVersionDefinitions_ok`: a walk that succeeds has folded the records, and
  `walkVersionDefinitions_again`: another one over them, with no less budget left,
  succeeds too;
* `version_agreement`: what a match says, and that the requirement which a symbol
  makes on its own object is matched there.
-/
import LibA32Android.Elf.StableLookup
import LibA32Android.Foundations.Carries
import LibA32Android.Foundations.FirstHit
import LibA32Android.Memory.LinearBackend

namespace LibA32Android

open Foundations QueryProgram

variable {o : UInt32 × ℕ → Option (List UInt8)} {bytes : ℕ → UInt8}

/-! ### Records as data -/

/-- Whatever is read is a part of one address space. -/
def Shows (o : UInt32 × ℕ → Option (List UInt8)) (bytes : ℕ → UInt8) : Prop :=
  ∀ address length out, o (address, length) = some out → out = window bytes address.toNat length

/-- A memory whose reads are exact shows its bytes. -/
lemma LawfulGuestMemory.shows {M : Type} [LawfulGuestMemory M] (m : M) :
    Shows (GuestMemory.reads m) (LawfulGuestMemory.bytes m) :=
  fun _ _ _ h => LawfulGuestMemory.read_exact h

/-- The entry of a string table at an offset: the bytes before the first 0. -/
def stringAt (bytes : ℕ → UInt8) (table : Elf32StringTableMetadata) (offset : UInt32) :
    ByteString :=
  (window bytes (table.guestAddress.toNat + offset.toNat)
    (table.size.toNat - offset.toNat)).takeWhile (· ≠ 0)

/-- The entry of a `VERSYM` table. -/
def versymAt (bytes : ℕ → UInt8) (table : Elf32VersionSymbolTableMetadata)
    (symbolIndex : UInt32) : UInt16 :=
  decodeU16Le (window bytes (table.guestAddress.toNat + symbolIndex.toNat * 2) 2) 0

/-- What the `VERDEF` record at an address defines; the base record defines nothing. -/
def verdefAt (bytes : ℕ → UInt8) (stringTable : Elf32StringTableMetadata) (address : ℕ) :
    Option VersionDefinition :=
  let record := window bytes address 20
  if decodeU16Le record 2 &&& 0x1 = 0 then
    let auxRecord := window bytes (address + (decodeU32Le record 12).toNat) 8
    some { index := decodeU16Le record 4, elfHash := decodeU32Le record 8,
           name := stringAt bytes stringTable (decodeU32Le auxRecord 0) }
  else none

/-- The definitions of `count` records, each of which says where the next one is. -/
def verdefRecords (bytes : ℕ → UInt8) (stringTable : Elf32StringTableMetadata) :
    ℕ → ℕ → List VersionDefinition
  | 0, _ => []
  | count + 1, address =>
    (verdefAt bytes stringTable address).toList
      ++ verdefRecords bytes stringTable count
        (address + (decodeU32Le (window bytes address 20) 16).toNat)

/-- The versions that an object defines. -/
def versionDefinitions (bytes : ℕ → UInt8) (metadata : Elf32LinkerMetadata) :
    List VersionDefinition :=
  match metadata.versionDefinitionTable, metadata.stringTable with
  | some table, some stringTable =>
    verdefRecords bytes stringTable table.count.toNat table.guestAddress.toNat
  | _, _ => []

/-! ### Strings -/

section Strings

variable {maxStringBytes : ℕ} {l : List UInt8} {position : ℕ} {value : ByteString}

/-- A terminated scan has found the bytes before the first 0. -/
lemma scanChunk_eq_terminated {string : ByteString}
    (h : scanChunk maxStringBytes l position value = .terminated string) (rest : List UInt8) :
    string = value ++ (l ++ rest).takeWhile (· ≠ 0) := by
  induction l generalizing position value with
  | nil => cases h
  | cons byte l ih =>
      rw [scanChunk] at h
      split at h
      · rename_i hzero
        cases h
        simp [hzero]
      · rename_i hne
        split at h
        · cases h
        · rw [ih h]
          simp [hne]

/-- A scan that goes on has found no 0. -/
lemma scanChunk_eq_more {value' : ByteString}
    (h : scanChunk maxStringBytes l position value = .more value') (rest : List UInt8) :
    value ++ (l ++ rest).takeWhile (· ≠ 0) = value' ++ rest.takeWhile (· ≠ 0) := by
  induction l generalizing position value with
  | nil =>
      cases h
      rfl
  | cons byte l ih =>
      rw [scanChunk] at h
      split at h
      · cases h
      · rename_i hne
        split at h
        · cases h
        · rw [← ih h]
          simp [hne]

end Strings

/-- The chunk loop, over the bytes that are shown.  The induction is on the rounds left. -/
lemma readStringChunks_ok (hshows : Shows o bytes) {start remaining maxStringBytes rounds : ℕ}
    {inspected : ℕ} {value string : ByteString}
    (h : (readStringChunks start remaining maxStringBytes rounds inspected value).under o
      = .ok string) :
    string = value
      ++ (window bytes (start + inspected) (remaining - inspected)).takeWhile (· ≠ 0) := by
  induction rounds generalizing inspected value with
  | zero =>
      rw [readStringChunks, endOfString] at h
      split at h <;> cases h
  | succ rounds ih =>
      rw [readStringChunks] at h
      split at h
      · rename_i hmore
        dsimp only at h
        generalize hchunk : min 256 (min (remaining - inspected) (maxStringBytes + 1 - inspected))
          = chunk at h
        rw [under_bind, under_reject, refuse_bind_ok_iff, under_bind, readBytes, under_query,
          ok_bind] at h
        obtain ⟨hfits, h⟩ := h
        have hcurrent : (UInt32.ofNat (start + inspected)).toNat = start + inspected :=
          UInt32.toNat_ofNat_of_lt' (show start + inspected < 2 ^ 32 by omega)
        have hsplit : remaining - inspected = chunk + (remaining - (inspected + chunk)) := by omega
        rw [hsplit, window_add]
        cases hread : o (UInt32.ofNat (start + inspected), chunk) with
        | none =>
            rw [hread] at h
            cases h
        | some buffer =>
            rw [hread] at h
            have hbuffer := hshows _ _ _ hread
            rw [hcurrent] at hbuffer
            rw [← hbuffer]
            dsimp only at h
            cases hscan : scanChunk maxStringBytes buffer inspected value with
            | terminated string' =>
                rw [hscan] at h
                cases h
                exact scanChunk_eq_terminated hscan _
            | tooLong =>
                rw [hscan] at h
                cases h
            | more value' =>
                rw [hscan] at h
                rw [scanChunk_eq_more hscan, ih h, Nat.add_assoc]
      · rw [endOfString] at h
        split at h <;> cases h

lemma readVersionString_ok (hshows : Shows o bytes) {stringTable : Elf32StringTableMetadata}
    {offset : UInt32} {options : Elf32SymbolVersionOptions} {name : ByteString}
    (h : (readVersionString stringTable offset options).under o = .ok name) :
    name = stringAt bytes stringTable offset := by
  rw [readVersionString, under_mapError, mapError_ok_iff, readElf32StringTableEntry, under_bind,
    under_reject, refuse_bind_ok_iff] at h
  obtain ⟨-, h⟩ := h
  dsimp only at h
  rw [under_bind, under_reject, refuse_bind_ok_iff] at h
  rw [readStringChunks_ok hshows h.2]
  rfl

/-! ### Walks -/

lemma readRecord_ok (hshows : Shows o bytes) {address : UInt32} {size : ℕ} {record : List UInt8}
    (h : (readRecord address size).under o = .ok record) :
    record = window bytes address.toNat size := by
  rw [readRecord, under_bind, readBytes, under_query, ok_bind] at h
  cases hread : o (address, size) with
  | none =>
      rw [hread] at h
      cases h
  | some out =>
      rw [hread] at h
      cases h
      exact hshows _ _ _ hread

lemma addAddress_ok {base offset address : UInt32}
    (h : (addAddress base offset).under o = .ok address) :
    address.toNat = base.toNat + offset.toNat := by
  rw [addAddress] at h
  cases hadd : checkedAddGuestAddress base offset.toNat with
  | none =>
      rw [hadd] at h
      cases h
  | some address' =>
      rw [hadd] at h
      cases h
      exact (checkedAddGuestAddress_eq_some.mp hadd).2

lemma readVersym_ok (hshows : Shows o bytes) {table : Elf32VersionSymbolTableMetadata}
    {symbolIndex : UInt32} {raw : UInt16} (h : (readVersym table symbolIndex).under o = .ok raw) :
    raw = versymAt bytes table symbolIndex := by
  rw [readVersym] at h
  cases hadd : checkedAddGuestAddress table.guestAddress (symbolIndex.toNat * 2) with
  | none =>
      rw [hadd] at h
      cases h
  | some address =>
      rw [hadd] at h
      rw [under_bind] at h
      obtain ⟨record, hrecord, h⟩ := bind_ok_iff.mp h
      cases h
      rw [readRecord_ok hshows hrecord, (checkedAddGuestAddress_eq_some.mp hadd).2, versymAt]

section Walks

variable {stringTable : Elf32StringTableMetadata} {options : Elf32SymbolVersionOptions}
  {current : UInt32} {budget budget' : WalkBudget} {σ τ : Type}

/-- The definition that was read is the one in memory. -/
lemma readVersionDefinition_ok (hshows : Shows o bytes) {definition : VersionDefinition}
    (hflags : decodeU16Le (window bytes current.toNat 20) 2 &&& 0x1 = 0)
    (h : (readVersionDefinition stringTable options current (window bytes current.toNat 20)
      budget).under o = .ok (definition, budget')) :
    verdefAt bytes stringTable current.toNat = some definition := by
  simp only [readVersionDefinition, under_bind, bind_ok_iff, under_reject, refuse_ok_iff,
    exists_const, under_pure, Except.ok.injEq, Prod.mk.injEq] at h
  obtain ⟨-, left, -, aux, haux, auxRecord, hauxRecord, name, hname, rfl, -⟩ := h
  rw [readVersionString_ok hshows hname, readRecord_ok hshows hauxRecord, addAddress_ok haux]
  simp [verdefAt, hflags]

/-- The record that comes next, if one does. -/
lemma nextRecord_ok {rounds : ℕ} (hrounds : rounds ≠ 0) {nextOffset next : UInt32}
    (h : (nextRecord rounds current nextOffset).under o = .ok next) :
    next.toNat = current.toNat + nextOffset.toNat := by
  rw [nextRecord, if_neg hrounds, under_bind, under_reject, refuse_bind_ok_iff] at h
  exact addAddress_ok h.2

/-- The records behind the next one do not depend on where it is if there are none. -/
lemma verdefRecords_next {rounds : ℕ} {nextOffset next : UInt32}
    (h : (nextRecord rounds current nextOffset).under o = .ok next) :
    verdefRecords bytes stringTable rounds next.toNat
      = verdefRecords bytes stringTable rounds (current.toNat + nextOffset.toNat) := by
  rcases eq_or_ne rounds 0 with rfl | hne
  · rfl
  · rw [nextRecord_ok hne h]

/-- **A walk that succeeds** has folded the records. -/
lemma walkVersionDefinitions_ok (hshows : Shows o bytes) {define : σ → VersionDefinition → σ}
    {rounds : ℕ} {s s' : σ}
    (h : (walkVersionDefinitions stringTable options define rounds current budget s).under o
      = .ok s') :
    s' = (verdefRecords bytes stringTable rounds current.toNat).foldl define s := by
  induction rounds generalizing current budget s with
  | zero =>
      cases h
      rfl
  | succ rounds ih =>
      rw [walkVersionDefinitions, under_bind] at h
      obtain ⟨left, -, h⟩ := bind_ok_iff.mp h
      rw [under_bind] at h
      obtain ⟨record, hrecord, h⟩ := bind_ok_iff.mp h
      obtain rfl := readRecord_ok hshows hrecord
      rw [under_bind, under_reject, refuse_bind_ok_iff, under_ite] at h
      obtain ⟨-, h⟩ := h
      rw [verdefRecords, List.foldl_append]
      split at h
      · rename_i hflags
        rw [under_bind] at h
        obtain ⟨⟨definition, left'⟩, hdefinition, h⟩ := bind_ok_iff.mp h
        rw [under_bind] at h
        obtain ⟨next, hnext, h⟩ := bind_ok_iff.mp h
        rw [readVersionDefinition_ok hshows hflags hdefinition, ih h, verdefRecords_next hnext]
        rfl
      · rename_i hflags
        rw [under_bind] at h
        obtain ⟨next, hnext, h⟩ := bind_ok_iff.mp h
        have hbase : verdefAt bytes stringTable current.toNat = none := by
          rw [verdefAt, if_neg hflags]
        rw [hbase, ih h, verdefRecords_next hnext]
        rfl

/-- A budget of which no more is used. -/
def WalkBudget.Lasts (budget budget' : WalkBudget) : Prop :=
  budget'.used ≤ budget.used ∧ budget'.limit = budget.limit

lemma takeRecord_again (hbudget : budget.Lasts budget') :
    Carries o NoError WalkBudget.Lasts (takeRecord budget) (takeRecord budget') := by
  obtain ⟨hused, hlimit⟩ := hbudget
  rw [takeRecord, takeRecord, WalkBudget.take, WalkBudget.take]
  by_cases hfull : budget.used ≥ budget.limit
  · rw [if_pos hfull]
    exact .fail id _
  · rw [if_neg hfull, if_neg (by omega)]
    exact .pure ⟨Nat.succ_le_succ hused, hlimit⟩

/-- **A walk over the same records**, with no less of its budget left, succeeds as
well, whatever it does at the definitions. -/
lemma walkVersionDefinitions_again (hbudget : budget.Lasts budget')
    (define : σ → VersionDefinition → σ) (define' : τ → VersionDefinition → τ) (rounds : ℕ)
    (s : σ) (t : τ) :
    Carries o NoError (fun _ _ => True)
      (walkVersionDefinitions stringTable options define rounds current budget s)
      (walkVersionDefinitions stringTable options define' rounds current budget' t) := by
  induction rounds generalizing current budget budget' s t with
  | zero => exact .pure trivial
  | succ rounds ih =>
      refine .bind (takeRecord_again hbudget) fun left left' _ hleft => ?_
      refine .bind_same fun record _ => .bind_same fun _ _ => .ite (fun _ => ?_) fun _ => ?_
      · have hdefinition : Carries o NoError (fun x x' => x.1 = x'.1 ∧ x.2.Lasts x'.2)
            (readVersionDefinition stringTable options current record left)
            (readVersionDefinition stringTable options current record left') := by
          refine .bind_same fun _ _ => .bind (takeRecord_again hleft) fun left left' _ hleft => ?_
          refine .bind_same fun aux _ => .bind_same fun auxRecord _ => .bind_same fun name _ => ?_
          exact .pure ⟨rfl, hleft⟩
        refine .bind hdefinition ?_
        rintro ⟨definition, left⟩ ⟨_, left'⟩ - ⟨rfl, hleft⟩
        exact .bind_same fun next _ => ih hleft _ _
      · exact .bind_same fun next _ => ih hleft _ _

/-- The walks over requirements use the budget up, but keep its limit. -/
lemma takeRecord_limit (h : (takeRecord budget).under o = .ok budget') :
    budget'.limit = budget.limit := by
  rw [takeRecord, WalkBudget.take] at h
  by_cases hfull : budget.used ≥ budget.limit
  · rw [if_pos hfull] at h
    cases h
  · rw [if_neg hfull] at h
    cases h
    rfl

lemma walkVersionAux_limit {sourceIndex : UInt16} {targetObject rounds : ℕ}
    {found found' : Option Elf32SymbolVersionRequirement}
    (h : (walkVersionAux stringTable options sourceIndex targetObject rounds current budget
      found).under o = .ok (found', budget')) : budget'.limit = budget.limit := by
  induction rounds generalizing current budget found with
  | zero =>
      cases h
      rfl
  | succ rounds ih =>
      simp only [walkVersionAux, under_bind, bind_ok_iff] at h
      obtain ⟨left, hleft, record, -, name, -, next, -, h⟩ := h
      exact (ih h).trans (takeRecord_limit hleft)

lemma walkVersionRequirements_limit {graph : Elf32DependencyGraph}
    {requester : Elf32LoadedDependencyObject} {sourceIndex : UInt16} {rounds : ℕ}
    {found found' : Option Elf32SymbolVersionRequirement}
    (h : (walkVersionRequirements graph requester stringTable options sourceIndex rounds current
      budget found).under o = .ok (found', budget')) : budget'.limit = budget.limit := by
  induction rounds generalizing current budget found with
  | zero =>
      cases h
      rfl
  | succ rounds ih =>
      simp only [walkVersionRequirements, under_bind, bind_ok_iff] at h
      obtain ⟨left, hleft, record, -, u, -, name, -, target, -, aux, -, ⟨found₁, left'⟩, haux, next, -,
        h⟩ := h
      exact (ih h).trans ((walkVersionAux_limit haux).trans (takeRecord_limit hleft))

end Walks

/-! ### The two queries -/

section Queries

variable {metadata : Elf32LinkerMetadata} {options : Elf32SymbolVersionOptions}

/-- The records that a walk passes are those of the object. -/
lemma versionDefinitions_of_checkWalk {table : Elf32VersionTableMetadata}
    (htable : metadata.versionDefinitionTable = some table)
    {stringTable : Elf32StringTableMetadata}
    (h : (checkWalk metadata options).under o = .ok stringTable) :
    versionDefinitions bytes metadata
      = verdefRecords bytes stringTable table.count.toNat table.guestAddress.toNat := by
  rw [checkWalk, under_bind, under_reject, refuse_bind_ok_iff] at h
  cases hstrings : metadata.stringTable with
  | none =>
      rw [hstrings] at h
      cases h.2
  | some stringTable' =>
      rw [hstrings] at h
      cases h.2
      rw [versionDefinitions, htable, hstrings]

/-- The walk that looks for the index of a requirement. -/
lemma expectedVersionIndex_ok (hshows : Shows o bytes)
    {requirement : Elf32SymbolVersionRequirement} {expected : UInt16}
    (h : (expectedVersionIndex metadata requirement options).under o = .ok expected) :
    expected = (versionDefinitions bytes metadata).foldl
      (fun expected definition =>
        if definition.elfHash = requirement.elfHash ∧ definition.name = requirement.name then
          versionIndex definition.index
        else expected) 1 := by
  rw [expectedVersionIndex] at h
  cases htable : metadata.versionDefinitionTable with
  | none =>
      rw [htable] at h
      cases h
      rw [versionDefinitions, htable]
      rfl
  | some table =>
      rw [htable] at h
      rw [under_bind] at h
      obtain ⟨stringTable, hstrings, h⟩ := bind_ok_iff.mp h
      rw [versionDefinitions_of_checkWalk htable hstrings]
      exact walkVersionDefinitions_ok hshows h

/-- It succeeds after another walk over the records. -/
lemma expectedVersionIndex_again {table : Elf32VersionTableMetadata}
    (htable : metadata.versionDefinitionTable = some table)
    {stringTable : Elf32StringTableMetadata}
    (hstrings : (checkWalk metadata options).under o = .ok stringTable) {σ : Type}
    {define : σ → VersionDefinition → σ} {left : WalkBudget} {s s' : σ}
    (hlimit : left.limit = options.maxRecords.toNat)
    (hwalk : (walkVersionDefinitions stringTable options define table.count.toNat
      table.guestAddress left s).under o = .ok s') (requirement : Elf32SymbolVersionRequirement) :
    ∃ expected, (expectedVersionIndex metadata requirement options).under o = .ok expected := by
  have hbudget : left.Lasts { limit := options.maxRecords.toNat } := ⟨Nat.zero_le _, hlimit.symm⟩
  rw [expectedVersionIndex, htable]
  simp only [under_bind, hstrings, ok_bind]
  obtain ⟨expected, hexpected, -⟩ :=
    (walkVersionDefinitions_again hbudget define _ _ s (1 : UInt16)).ok _ hwalk
  exact ⟨expected, hexpected⟩

/-- What a match compares. -/
lemma matchElf32SymbolVersion_ok (hshows : Shows o bytes)
    {versyms : Elf32VersionSymbolTableMetadata} (hversyms : metadata.versionSymbolTable = some versyms)
    {symbolIndex : UInt32} {requirement : Elf32SymbolVersionRequirement} {matching : Bool}
    (h : (matchElf32SymbolVersion metadata symbolIndex (some requirement) options).under o
      = .ok matching) :
    ∃ expected, (expectedVersionIndex metadata requirement options).under o = .ok expected
      ∧ (matching = true ↔ versionIndex (versymAt bytes versyms symbolIndex) = expected) := by
  rw [matchElf32SymbolVersion, under_bind, under_reject, refuse_bind_ok_iff, hversyms] at h
  obtain ⟨-, h⟩ := h
  rw [under_bind] at h
  obtain ⟨raw, hraw, h⟩ := bind_ok_iff.mp h
  rw [under_bind] at h
  obtain ⟨expected, hexpected, h⟩ := bind_ok_iff.mp h
  cases h
  rw [← readVersym_ok hshows hraw]
  exact ⟨expected, hexpected, decide_eq_true_iff⟩

/-- The definition walk of a resolution starts with what the requirements have left of
the budget. -/
lemma findVersionRequirement_ok {graph : Elf32DependencyGraph} {requesterObject : ℕ}
    {requester : Elf32LoadedDependencyObject} {stringTable : Elf32StringTableMetadata}
    {sourceIndex : UInt16} {table : Elf32VersionTableMetadata}
    (htable : requester.linkerMetadata.versionDefinitionTable = some table)
    {result : Option Elf32SymbolVersionRequirement}
    (h : (findVersionRequirement graph requesterObject requester stringTable options
      sourceIndex).under o = .ok result) :
    ∃ found left, left.limit = options.maxRecords.toNat
      ∧ (walkVersionDefinitions stringTable options
        (fun found definition =>
          if versionIndex definition.index = sourceIndex then
            some { elfHash := definition.elfHash, name := definition.name,
                   targetObject := some requesterObject : Elf32SymbolVersionRequirement }
          else found)
        table.count.toNat table.guestAddress left found).under o = .ok result := by
  rw [findVersionRequirement] at h
  cases hrequirements : requester.linkerMetadata.versionRequirementTable with
  | none =>
      simp only [hrequirements, htable] at h
      exact ⟨none, { limit := options.maxRecords.toNat }, rfl, h⟩
  | some requirements =>
      simp only [hrequirements, htable] at h
      rw [under_bind] at h
      obtain ⟨⟨found, left⟩, hwalk, h⟩ := bind_ok_iff.mp h
      exact ⟨found, left, walkVersionRequirements_limit hwalk, h⟩

/-- What a resolution that succeeds has gone through. -/
lemma resolveElf32SymbolVersionRequirement_ok {graph : Elf32DependencyGraph} {requesterObject : ℕ}
    (hmetadata : (graph.objects.getD requesterObject default).linkerMetadata = metadata)
    {versyms : Elf32VersionSymbolTableMetadata} (hversyms : metadata.versionSymbolTable = some versyms)
    {symbolIndex : UInt32} {requirement : Elf32SymbolVersionRequirement}
    (h : (resolveElf32SymbolVersionRequirement graph requesterObject symbolIndex options).under o
      = .ok (some requirement)) :
    ¬(metadata.hasSymbolVersioning ∧ !hasAnyVersionDescriptor metadata)
      ∧ ∃ raw, (readVersym versyms symbolIndex).under o = .ok raw
      ∧ ∃ stringTable, (checkWalk metadata options).under o = .ok stringTable
      ∧ (findVersionRequirement graph requesterObject (graph.objects.getD requesterObject default)
        stringTable options (versionIndex raw)).under o = .ok (some requirement) := by
  rw [resolveElf32SymbolVersionRequirement, under_bind, under_reject, refuse_bind_ok_iff] at h
  obtain ⟨-, h⟩ := h
  simp only [hmetadata, hversyms, under_bind, under_reject, refuse_bind_ok_iff] at h
  obtain ⟨hchecked, h⟩ := h
  obtain ⟨raw, hraw, h⟩ := bind_ok_iff.mp h
  rw [under_ite] at h
  split at h
  · cases h
  · rw [under_bind] at h
    obtain ⟨stringTable, hstrings, h⟩ := bind_ok_iff.mp h
    rw [under_bind] at h
    obtain ⟨found, hfound, h⟩ := bind_ok_iff.mp h
    cases found with
    | none => cases h
    | some requirement' =>
        cases h
        exact ⟨hchecked, raw, hraw, stringTable, hstrings, hfound⟩

section Distinct

variable (hshows : Shows o bytes)
  (hnames : ((versionDefinitions bytes metadata).map fun d => (d.elfHash, d.name)).Nodup)
include hshows hnames

/-- The definition of a hash and a name decides what is expected. -/
lemma expectedVersionIndex_of_mem {d : VersionDefinition} (hd : d ∈ versionDefinitions bytes metadata)
    {requirement : Elf32SymbolVersionRequirement}
    (hkey : d.elfHash = requirement.elfHash ∧ d.name = requirement.name) {expected : UInt16}
    (h : (expectedVersionIndex metadata requirement options).under o = .ok expected) :
    expected = versionIndex d.index := by
  rw [expectedVersionIndex_ok hshows h]
  refine foldl_ite_of_mem hd hkey (fun d' hd' hkey' => ?_) 1
  have hsame : (d'.elfHash, d'.name) = (d.elfHash, d.name) :=
    Prod.ext (hkey'.1.trans hkey.1.symm) (hkey'.2.trans hkey.2.symm)
  rw [List.inj_on_of_nodup_map hnames hd' hd hsame]

/-- **What a match says.** -/
lemma matching_iff {versyms : Elf32VersionSymbolTableMetadata}
    (hversyms : metadata.versionSymbolTable = some versyms) {symbolIndex : UInt32}
    {requirement : Elf32SymbolVersionRequirement} {matching : Bool}
    (h : (matchElf32SymbolVersion metadata symbolIndex (some requirement) options).under o
      = .ok matching) :
    matching = true ↔
      (∃ d ∈ versionDefinitions bytes metadata,
        (d.elfHash = requirement.elfHash ∧ d.name = requirement.name)
          ∧ versionIndex (versymAt bytes versyms symbolIndex) = versionIndex d.index)
      ∨ (∀ d ∈ versionDefinitions bytes metadata,
        ¬(d.elfHash = requirement.elfHash ∧ d.name = requirement.name))
          ∧ versionIndex (versymAt bytes versyms symbolIndex) = 1 := by
  obtain ⟨expected, hexpected, hiff⟩ := matchElf32SymbolVersion_ok hshows hversyms h
  rw [hiff]
  by_cases hsome : ∃ d ∈ versionDefinitions bytes metadata,
      d.elfHash = requirement.elfHash ∧ d.name = requirement.name
  · obtain ⟨d, hd, hkey⟩ := hsome
    constructor
    · intro hversion
      exact .inl ⟨d, hd, hkey,
        hversion.trans (expectedVersionIndex_of_mem hshows hnames hd hkey hexpected)⟩
    · rintro (⟨d', hd', hkey', hversion⟩ | ⟨hnone, -⟩)
      · exact hversion.trans (expectedVersionIndex_of_mem hshows hnames hd' hkey' hexpected).symm
      · exact absurd hkey (hnone d hd)
  · have hnone : ∀ d ∈ versionDefinitions bytes metadata,
        ¬(d.elfHash = requirement.elfHash ∧ d.name = requirement.name) :=
      fun d hd hkey => hsome ⟨d, hd, hkey⟩
    have hglobal : expected = 1 := by
      rw [expectedVersionIndex_ok hshows hexpected]
      exact foldl_ite_of_forall fun d hd hkey => absurd hkey (hnone d hd)
    rw [hglobal]
    constructor
    · exact fun hversion => .inr ⟨hnone, hversion⟩
    · rintro (⟨d, hd, hkey, -⟩ | ⟨-, hversion⟩)
      · exact absurd hkey (hnone d hd)
      · exact hversion

/-- **A symbol matches the requirement that it makes** on its own object.  The walk of
the match starts with the whole budget, so it gets as far as the one of the
resolution. -/
lemma match_of_resolve
    (hindices : ((versionDefinitions bytes metadata).map fun d => versionIndex d.index).Nodup)
    {versyms : Elf32VersionSymbolTableMetadata} (hversyms : metadata.versionSymbolTable = some versyms)
    {graph : Elf32DependencyGraph} {requesterObject : ℕ}
    (hmetadata : (graph.objects.getD requesterObject default).linkerMetadata = metadata)
    {symbolIndex : UInt32} {d : VersionDefinition} (hd : d ∈ versionDefinitions bytes metadata)
    (hversion : versionIndex d.index = versionIndex (versymAt bytes versyms symbolIndex))
    {requirement : Elf32SymbolVersionRequirement}
    (h : (resolveElf32SymbolVersionRequirement graph requesterObject symbolIndex options).under o
      = .ok (some requirement)) :
    (matchElf32SymbolVersion metadata symbolIndex (some requirement) options).under o
      = .ok true := by
  obtain ⟨hchecked, raw, hraw, stringTable, hstrings, hfind⟩ :=
    resolveElf32SymbolVersionRequirement_ok hmetadata hversyms h
  rw [← readVersym_ok hshows hraw] at hversion
  cases htable : metadata.versionDefinitionTable with
  | none => simp [versionDefinitions, htable] at hd
  | some table =>
      obtain ⟨found, left, hlimit, hwalk⟩ := findVersionRequirement_ok (hmetadata ▸ htable) hfind
      -- the requirement is the definition of this index
      have hrequirement := walkVersionDefinitions_ok hshows hwalk
      rw [← versionDefinitions_of_checkWalk htable hstrings,
        foldl_ite_of_mem hd hversion fun d' hd' hversion' => by
          rw [List.inj_on_of_nodup_map hindices hd' hd (hversion'.trans hversion.symm)]]
        at hrequirement
      obtain rfl := Option.some.inj hrequirement
      obtain ⟨expected, hexpected⟩ := expectedVersionIndex_again htable hstrings hlimit hwalk
        { elfHash := d.elfHash, name := d.name, targetObject := some requesterObject }
      have hindex := expectedVersionIndex_of_mem hshows hnames hd ⟨rfl, rfl⟩ hexpected
      rw [matchElf32SymbolVersion, under_bind, under_reject, refuse_neg hchecked, ok_bind, hversyms]
      simp only [under_bind, hraw, ok_bind, hexpected, under_pure, hindex, hversion, decide_true]

end Distinct

end Queries

/-- **Requests and matches of versions agree.**  Take a memory whose reads show the bytes
of an address space, and an object with a `VERSYM` table whose version definitions,
the `VERDEF` records but the base one, have distinct indices, and distinct pairs of
hash and name.  A match that does not fail says whether the version index of the
symbol is that of the definition of this hash and name, or the global one if there is
none.  And if the version index of a symbol is that of one of the definitions of its
object, the requirement that is resolved for it is matched by the symbol itself. -/
theorem version_agreement {M : Type} [GuestMemory M] {memory : M} {bytes : ℕ → UInt8}
    (hshows : Shows (GuestMemory.reads memory) bytes) {metadata : Elf32LinkerMetadata}
    {versyms : Elf32VersionSymbolTableMetadata} (hversyms : metadata.versionSymbolTable = some versyms)
    (hindices : ((versionDefinitions bytes metadata).map fun d => versionIndex d.index).Nodup)
    (hnames : ((versionDefinitions bytes metadata).map fun d => (d.elfHash, d.name)).Nodup)
    (symbolIndex : UInt32) (options : Elf32SymbolVersionOptions) :
    let o := GuestMemory.reads memory
    let definitions := versionDefinitions bytes metadata
    let symbolVersion := versionIndex (versymAt bytes versyms symbolIndex)
    (∀ requirement matching,
      (matchElf32SymbolVersion metadata symbolIndex (some requirement) options).under o
        = .ok matching →
      (matching = true ↔
        (∃ d ∈ definitions, (d.elfHash = requirement.elfHash ∧ d.name = requirement.name)
          ∧ symbolVersion = versionIndex d.index)
        ∨ (∀ d ∈ definitions, ¬(d.elfHash = requirement.elfHash ∧ d.name = requirement.name))
          ∧ symbolVersion = 1))
    ∧ ∀ graph requesterObject requirement,
      (graph.objects.getD requesterObject default).linkerMetadata = metadata → 2 ≤ symbolVersion →
      (∃ d ∈ definitions, versionIndex d.index = symbolVersion) →
      (resolveElf32SymbolVersionRequirement graph requesterObject symbolIndex options).under o
        = .ok (some requirement) →
      (matchElf32SymbolVersion metadata symbolIndex (some requirement) options).under o
        = .ok true := by
  intro o definitions symbolVersion
  constructor
  · intro requirement matching h
    exact matching_iff hshows hnames hversyms h
  · rintro graph requesterObject requirement hmetadata - ⟨d, hd, hversion⟩ h
    exact match_of_resolve hshows hnames hindices hversyms hmetadata hd hversion h

/-- An object whose symbol 1 has the version index 2: a base record and the definition
`V1` of this index, and a requirement on another object that uses the index as well. -/
def clashingBytes : List UInt8 :=
  [0, 86, 49, 0, 108, 0, 0, 0]
    ++ [0, 0, 2, 0]
    ++ ([1, 0, 1, 0, 1, 0, 1, 0] ++ encodeU32Le 0 ++ encodeU32Le 20 ++ encodeU32Le 28)
    ++ (encodeU32Le 4 ++ encodeU32Le 0)
    ++ ([1, 0, 0, 0, 2, 0, 1, 0] ++ encodeU32Le 0x1234 ++ encodeU32Le 20 ++ encodeU32Le 0)
    ++ (encodeU32Le 1 ++ encodeU32Le 0)
    ++ ([1, 0, 1, 0] ++ encodeU32Le 4 ++ encodeU32Le 16 ++ encodeU32Le 0)
    ++ (encodeU32Le 0x99 ++ [0, 0, 2, 0] ++ encodeU32Le 4 ++ encodeU32Le 0)

def clashingMemory : LinearGuestMemory where
  base := 0x1000
  bytes := clashingBytes
  size_le := by decide

def clashingMetadata : Elf32LinkerMetadata where
  stringTable := some ⟨0x1000, 6⟩
  versionSymbolTable := some ⟨0x1008⟩
  versionDefinitionTable := some ⟨0x100c, 2⟩
  versionRequirementTable := some ⟨0x1044, 1⟩

def clashingGraph : Elf32DependencyGraph where
  objects := [
    { linkerMetadata := clashingMetadata, dependencies := [⟨[108], 1⟩] },
    { linkerStrings := { soname := some [108] } }]

theorem version_agreement_clash :
    (matchElf32SymbolVersion clashingMetadata 1
      (some { elfHash := 0x1234, name := [86, 49], targetObject := some 0 })
      { maxRecords := 16, maxNameBytes := 16 }).under (GuestMemory.reads clashingMemory)
        = .ok true := by
  have hresolve : (resolveElf32SymbolVersionRequirement clashingGraph 0 1
      { maxRecords := 16, maxNameBytes := 16 }).under (GuestMemory.reads clashingMemory)
        = .ok (some { elfHash := 0x1234, name := [86, 49], targetObject := some 0 }) := by
    decide +kernel
  have hversyms : clashingMetadata.versionSymbolTable = some ⟨0x1008⟩ := rfl
  exact (version_agreement (LawfulGuestMemory.shows clashingMemory) hversyms (by decide +kernel)
    (by decide +kernel) 1 { maxRecords := 16, maxNameBytes := 16 }).2 clashingGraph 0 _ rfl
    (by decide +kernel) (by decide +kernel) hresolve

end LibA32Android
