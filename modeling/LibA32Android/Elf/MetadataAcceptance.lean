/-
The dynamic arrays that validation accepts (`elf/elf32_linker_metadata.h`,
`elf/metadata/elf32_linker_metadata.cpp`).

A dynamic array is a list of declarations.  `build_elf32_linker_metadata` collects them one by
one, checks which of them go together and then goes through the tables; what an accepted array
is can be said without any of these steps.

* `declaration`: what a list of entries declares, as a function of the list;
* `Elf32Collection.Complete`: the tags that go together do;
* `Elf32Collection.Sized`: the declared sizes, types and offsets are the supported ones;
* `Elf32Collection.Placed`: every declared table lies, rebased, in readable memory;
* `metadata_accepts`: validation succeeds exactly on the arrays that repeat no recognised tag
  but `DT_NEEDED` and have these properties, and returns the declaration with its addresses
  rebased.
-/
import LibA32Android.Elf.DynamicOrder
import LibA32Android.Elf.MetadataConsumers

namespace LibA32Android

open Foundations QueryProgram

/-! ### What a list of entries declares -/

/-- The value of an optional: that of the first entry with a tag for it. -/
def declared (l : List Elf32DynamicEntry) (field : SingletonField) : Option UInt32 :=
  (l.find? fun entry => entry.slot = some (some field)).map (·.value)

/-- The declarations of a list of entries. -/
def declaration (l : List Elf32DynamicEntry) : Elf32Collection where
  fields := declared l
  neededOffsets := (l.filter (·.isNeeded)).map (·.value)
  hasDtSymbolic := l.any fun entry => entry.slot = some none

/-- Two entries that do not fill the same slot. -/
def SlotsApart (entry entry' : Elf32DynamicEntry) : Prop :=
  ∀ slot ∈ entry'.slot, entry.slot ≠ some slot

instance (entry entry' : Elf32DynamicEntry) : Decidable (SlotsApart entry entry') :=
  inferInstanceAs (Decidable (∀ slot ∈ entry'.slot, entry.slot ≠ some slot))

variable {l : List Elf32DynamicEntry} {entry : Elf32DynamicEntry}

/-- A slot is filled by the entries that have it. -/
lemma taken_declaration (slot : Option SingletonField) :
    (declaration l).taken slot = true ↔ ∃ entry ∈ l, entry.slot = some slot := by
  cases slot with
  | none => simp [Elf32Collection.taken, declaration]
  | some field => simp [Elf32Collection.taken, declaration, declared]

lemma slot_of_isNeeded (h : entry.isNeeded = true) : entry.slot = none := by
  have htag : entry.tag = 1 := of_decide_eq_true h
  rw [Elf32DynamicEntry.slot, htag]
  rfl

lemma declared_append (field : SingletonField) :
    declared (l ++ [entry]) field
      = (declared l field).or
          (if entry.slot = some (some field) then some entry.value else none) := by
  rw [declared, declared, List.find?_append, Option.map_or, List.find?_singleton]
  simp only [decide_eq_true_eq]
  split <;> rfl

lemma declaration_needed (h : entry.isNeeded = true) :
    declaration (l ++ [entry]) = (declaration l).addNeeded [entry.value] := by
  have hslot := slot_of_isNeeded h
  have hfields : declared (l ++ [entry]) = declared l := by
    funext field
    simp [declared_append, hslot]
  simp [declaration, Elf32Collection.addNeeded, hfields, hslot, h]

lemma declaration_other (h : entry.isNeeded = false) (hslot : entry.slot = none) :
    declaration (l ++ [entry]) = declaration l := by
  have hfields : declared (l ++ [entry]) = declared l := by
    funext field
    simp [declared_append, hslot]
  simp [declaration, hfields, hslot, h]

lemma declaration_slot (h : entry.isNeeded = false) {slot : Option SingletonField}
    (hslot : entry.slot = some slot) (hfree : (declaration l).taken slot = false) :
    declaration (l ++ [entry]) = (declaration l).put entry.value slot := by
  cases slot with
  | none =>
      have hfields : declared (l ++ [entry]) = declared l := by
        funext field
        simp [declared_append, hslot]
      simp [declaration, Elf32Collection.put, hfields, hslot, h]
  | some field =>
      have hnone : declared l field = none := by
        simpa [Elf32Collection.taken, declaration] using hfree
      have hfields : declared (l ++ [entry])
          = Function.update (declared l) field (some entry.value) := by
        funext field'
        rw [declared_append, hslot]
        by_cases hfield : field' = field
        · subst hfield
          simp [hnone]
        · simp [hfield, Ne.symm hfield]
      simp [declaration, Elf32Collection.put, hfields, hslot, h]

/-- A round of the loop after the entries `done`. -/
lemma collectEntry_ok_iff (done : List Elf32DynamicEntry) (entry : Elf32DynamicEntry)
    (c : Elf32Collection) :
    collectEntry (declaration done) entry = .ok c
      ↔ (∀ entry' ∈ done, SlotsApart entry' entry) ∧ c = declaration (done ++ [entry]) := by
  cases hneeded : entry.isNeeded with
  | true =>
      have hapart : ∀ entry' ∈ done, SlotsApart entry' entry := by
        intro entry' _
        rw [SlotsApart, slot_of_isNeeded hneeded]
        simp
      rw [collectEntry_needed hneeded, declaration_needed hneeded, Except.ok.injEq]
      exact ⟨fun h => ⟨hapart, h.symm⟩, fun h => h.2.symm⟩
  | false =>
      rw [collectEntry_eq hneeded]
      cases hslot : entry.slot with
      | none =>
          dsimp only
          rw [declaration_other hneeded hslot, Except.ok.injEq]
          refine ⟨fun h => ⟨fun entry' _ => ?_, h.symm⟩, fun h => h.2.symm⟩
          rw [SlotsApart, hslot]
          simp
      | some slot =>
          dsimp only
          have hapart : (∀ entry' ∈ done, SlotsApart entry' entry)
              ↔ (declaration done).taken slot = false := by
            rw [Bool.eq_false_iff, Ne, taken_declaration]
            simp [SlotsApart, hslot]
          rw [hapart]
          split
          · rename_i htaken
            simp [htaken]
          · rename_i htaken
            have hfree : (declaration done).taken slot = false := Bool.eq_false_iff.mpr htaken
            rw [declaration_slot hneeded hslot hfree, Except.ok.injEq]
            exact ⟨fun h => ⟨hfree, h.symm⟩, fun h => h.2.symm⟩

/-- **The loop accepts** the lists that fill no slot twice, and returns their declarations. -/
lemma collectEntries_ok_iff {entries : List Elf32DynamicEntry} {c : Elf32Collection} :
    collectEntries entries = .ok c
      ↔ (beforeNull entries).Pairwise SlotsApart ∧ c = declaration (beforeNull entries) := by
  rw [pairwise_iff_split]
  exact foldlM_ok_iff collectEntry_ok_iff

/-! ### Tags that go together -/

namespace Elf32Collection

variable {c : Elf32Collection}

/-- A tag that was seen. -/
def Has (c : Elf32Collection) (field : SingletonField) : Prop := (c.fields field).isSome

/-- Tables are declared whole: the address of a table comes with its sizes and no size without
an address, names come with a string table and versions of symbols with a symbol table. -/
structure Complete (c : Elf32Collection) : Prop where
  stringTable : c.Has .strtab ↔ c.Has .strsz
  symbolTable : c.Has .symtab ↔ c.Has .syment
  relTable : (c.Has .rel ↔ c.Has .relsz) ∧ (c.Has .rel ↔ c.Has .relent)
  pltRelTable : (c.Has .jmprel ↔ c.Has .pltrelsz) ∧ (c.Has .jmprel ↔ c.Has .pltrel)
  initArray : c.Has .initArray ↔ c.Has .initArraySize
  finiArray : c.Has .finiArray ↔ c.Has .finiArraySize
  versionDefinitions : c.Has .verdef ↔ c.Has .verdefnum
  versionRequirements : c.Has .verneed ↔ c.Has .verneednum
  versionSymbols : c.Has .versym → c.Has .symtab
  names : c.Has .soname ∨ c.neededOffsets ≠ [] ∨ c.Has .verdef ∨ c.Has .verneed →
    c.Has .strtab

/-- The declared sizes, types and offsets are supported ones. -/
structure Sized (c : Elf32Collection) : Prop where
  symbolEntry : ∀ size ∈ c.fields .syment, size = 16
  relEntry : ∀ size ∈ c.fields .relent, size = 8
  relSize : ∀ size ∈ c.fields .relsz, size % 8 = 0
  pltRelSize : ∀ size ∈ c.fields .pltrelsz, size % 8 = 0
  pltRelType : ∀ type ∈ c.fields .pltrel, type = 17
  initArraySize : ∀ size ∈ c.fields .initArraySize, size % 4 = 0
  finiArraySize : ∀ size ∈ c.fields .finiArraySize, size % 4 = 0
  names : ∀ size ∈ c.fields .strsz,
    (∀ offset ∈ c.fields .soname, offset < size) ∧ ∀ offset ∈ c.neededOffsets, offset < size

/-- The checks after the loop. -/
lemma check_ok_iff {u : Unit} :
    c.check = .ok u ↔ c.Complete
      ∧ (∀ type ∈ c.fields .pltrel, type = 17)
      ∧ (∀ size ∈ c.fields .initArraySize, size % 4 = 0)
      ∧ ∀ size ∈ c.fields .finiArraySize, size % 4 = 0 := by
  have hpair : ∀ first second, c.pairIncomplete first second = true
      ↔ ¬(c.Has first ↔ c.Has second) := fun first second => by
    rw [pairIncomplete, Has, Has]
    cases (c.fields first).isSome <;> cases (c.fields second).isSome <;> decide
  have htriple : ∀ first second third, c.tripleIncomplete first second third = true
      ↔ ¬((c.Has first ↔ c.Has second) ∧ (c.Has first ↔ c.Has third)) :=
    fun first second third => by
      rw [tripleIncomplete, Has, Has, Has]
      cases (c.fields first).isSome <;> cases (c.fields second).isSome <;>
        cases (c.fields third).isSome <;> decide
  have hwords : ∀ field, c.badArraySize field = true
      ↔ ¬∀ size ∈ c.fields field, size % 4 = 0 := fun field => by
    rw [badArraySize]
    cases c.fields field <;> simp
  have htype : c.badPltRelType = true ↔ ¬∀ type ∈ c.fields .pltrel, type = 17 := by
    rw [badPltRelType]
    cases c.fields .pltrel <;> simp
  have hnone : ∀ field, (c.fields field).isNone = true ↔ ¬c.Has field := fun field => by
    rw [Has]
    cases c.fields field <;> simp
  simp only [check, refuse_bind_ok_iff, refuse_ok_iff, hpair, htriple, hwords, htype, hnone,
    not_or, not_and_not_right, not_not]
  constructor
  · rintro ⟨⟨hstr, hnames⟩, hsym, hrel, hplt, hpltType, hinit, hfini, ⟨hinitWords, hfiniWords⟩,
      hverdef, hverneed, hversym, hversions⟩
    refine ⟨⟨hstr, hsym, hrel, hplt, hinit, hfini, hverdef, hverneed, hversym, ?_⟩,
      hpltType, hinitWords, hfiniWords⟩
    rintro (h | h | h | h)
    · exact hnames (Or.inl h)
    · exact hnames (Or.inr h)
    · exact hversions (Or.inl h)
    · exact hversions (Or.inr h)
  · rintro ⟨h, hpltType, hinitWords, hfiniWords⟩
    refine ⟨⟨h.stringTable, fun hname => h.names ?_⟩, h.symbolTable, h.relTable, h.pltRelTable,
      hpltType, h.initArray, h.finiArray, ⟨hinitWords, hfiniWords⟩, h.versionDefinitions,
      h.versionRequirements, h.versionSymbols, fun hversion => h.names ?_⟩
    · exact hname.imp_right Or.inl
    · exact Or.inr (Or.inr hversion)

end Elf32Collection

/-- The collection accepts the arrays whose declarations pass the checks. -/
lemma collectElf32LinkerMetadata_ok_iff {entries : List Elf32DynamicEntry}
    {collected : Elf32CollectedLinkerMetadata} :
    collectElf32LinkerMetadata entries = .ok collected
      ↔ (beforeNull entries).Pairwise SlotsApart
        ∧ (declaration (beforeNull entries)).check = .ok ()
        ∧ collected = (declaration (beforeNull entries)).metadata := by
  rw [collectElf32LinkerMetadata, bind_ok_iff]
  simp only [collectEntries_ok_iff]
  constructor
  · rintro ⟨_, ⟨honce, rfl⟩, h⟩
    obtain ⟨⟨⟩, hcheck, hret⟩ := bind_ok_iff.mp h
    cases hret
    exact ⟨honce, hcheck, rfl⟩
  · rintro ⟨honce, hcheck, rfl⟩
    exact ⟨_, ⟨honce, rfl⟩, bind_ok_iff.mpr ⟨(), hcheck, rfl⟩⟩

/-! ### Tables in memory -/

variable {m : MappedGuestMemory} {loadBias address size : UInt32}

/-- A table at a declared address: rebasing does not wrap, and its bytes can be read. -/
def TableAt (m : MappedGuestMemory) (loadBias address : UInt32) (size : ℕ) : Prop :=
  address.toNat + loadBias.toNat < 2 ^ 32 ∧ m.Readable (address.toNat + loadBias.toNat) size

lemma readableRange_true_iff {ε : Type} {guestAddress : UInt32} :
    (readableRange guestAddress size : GuestRead ε Bool).under (GuestMemory.reads m) = .ok true
      ↔ m.Readable guestAddress.toNat size.toNat := by
  refine ⟨readableRange_true, fun h => ?_⟩
  rw [readableRange]
  split
  · rfl
  · rw [readableRangeFrom_eq]
    exact readableTableFrom_of_readable h _ _

lemma checkedAddGuestAddress_of_lt (h : address.toNat + loadBias.toNat < 2 ^ 32) :
    checkedAddGuestAddress address loadBias.toNat = some (address + loadBias) := by
  rw [checkedAddGuestAddress_eq_some, UInt32.toNat_add, Nat.mod_eq_of_lt h]
  exact ⟨h, rfl⟩

/-- **A range is accepted** at its rebased address when it lies there. -/
lemma describeRange_ok_iff {guestAddress : UInt32} :
    (describeRange loadBias address size).under (GuestMemory.reads m) = .ok guestAddress
      ↔ TableAt m loadBias address size.toNat ∧ guestAddress = address + loadBias := by
  by_cases hfits : address.toNat + loadBias.toNat < 2 ^ 32
  · have hsum : (address + loadBias).toNat = address.toNat + loadBias.toNat := by
      rw [UInt32.toNat_add, Nat.mod_eq_of_lt hfits]
    rw [describeRange, checkedAddGuestAddress_of_lt hfits]
    simp only [under_bind, under_reject, refuse_bind_ok_iff]
    rw [bind_ok_iff, TableAt, ← hsum]
    simp only [refuse_bind_ok_iff, under_pure, Except.ok.injEq]
    constructor
    · rintro ⟨-, readable, hreadable, hok, rfl⟩
      simp only [Bool.not_eq_true', Bool.not_eq_false] at hok
      exact ⟨⟨hsum ▸ hfits, readableRange_true (hok ▸ hreadable)⟩, rfl⟩
    · rintro ⟨⟨-, hreadable⟩, rfl⟩
      exact ⟨Nat.not_lt.mpr hreadable.1, true, readableRange_true_iff.mpr hreadable,
        by simp, rfl⟩
  · have hnone : checkedAddGuestAddress address loadBias.toNat = none := if_pos (by omega)
    rw [describeRange, hnone, under_fail]
    exact ⟨fun h => absurd h (by simp), fun h => absurd h.1.1 hfits⟩

/-- A table that is described when it is declared. -/
lemma describeOptional_ok_iff {α β : Type} {describe : α → GuestRead Elf32LinkerMetadataError β}
    {o : UInt32 × ℕ → Option (List UInt8)} {good : α → Prop} {f : α → β}
    (h : ∀ a b, (describe a).under o = .ok b ↔ good a ∧ b = f a) {collected : Option α}
    {described : Option β} :
    (describeOptional collected describe).under o = .ok described
      ↔ (∀ a ∈ collected, good a) ∧ described = collected.map f := by
  cases collected with
  | none => simp [describeOptional, eq_comm]
  | some a =>
      simp only [describeOptional, under_bind, bind_ok_iff, h, under_pure, Except.ok.injEq,
        Option.mem_some_iff, forall_eq', Option.map_some]
      constructor
      · rintro ⟨b, ⟨hgood, rfl⟩, rfl⟩
        exact ⟨hgood, rfl⟩
      · rintro ⟨hgood, rfl⟩
        exact ⟨f a, ⟨hgood, rfl⟩, rfl⟩

/-! ### The descriptors -/

/-- A descriptor made of a range. -/
lemma describeRange_bind_ok_iff {β : Type} {f : UInt32 → β} {b : β} :
    ((describeRange loadBias address size).under (GuestMemory.reads m) >>=
        fun guestAddress => .ok (f guestAddress)) = .ok b
      ↔ TableAt m loadBias address size.toNat ∧ b = f (address + loadBias) := by
  simp only [bind_ok_iff, describeRange_ok_iff, Except.ok.injEq]
  constructor
  · rintro ⟨_, ⟨hat, rfl⟩, rfl⟩
    exact ⟨hat, rfl⟩
  · rintro ⟨hat, rfl⟩
    exact ⟨_, ⟨hat, rfl⟩, rfl⟩

lemma describeStringTable_ok_iff {collected : Elf32CollectedLinkerMetadata}
    (raw : Elf32CollectedStringTableMetadata) (table : Elf32StringTableMetadata) :
    (describeStringTable loadBias collected raw).under (GuestMemory.reads m) = .ok table
      ↔ ((∀ offset ∈ collected.sonameOffset, offset < raw.size)
          ∧ (∀ offset ∈ collected.neededOffsets, offset < raw.size)
          ∧ TableAt m loadBias raw.addressValue raw.size.toNat)
        ∧ table = ⟨raw.addressValue + loadBias, raw.size⟩ := by
  simp only [describeStringTable, under_bind, under_reject, under_pure, refuse_bind_ok_iff,
    describeRange_bind_ok_iff, not_exists, not_and, ge_iff_le, UInt32.not_le, and_assoc]

lemma describeSymbolTable_ok_iff (raw : Elf32CollectedSymbolTableMetadata)
    (table : Elf32SymbolTableMetadata) :
    (describeSymbolTable loadBias raw).under (GuestMemory.reads m) = .ok table
      ↔ (raw.entrySize = 16 ∧ TableAt m loadBias raw.addressValue 16)
        ∧ table = ⟨raw.addressValue + loadBias, raw.entrySize⟩ := by
  simp only [describeSymbolTable, under_bind, under_reject, under_pure, refuse_bind_ok_iff,
    describeRange_bind_ok_iff, not_not, and_assoc]
  rfl

lemma describeVersionTable_ok_iff {fixedRecordSize : UInt32}
    (raw : Elf32CollectedVersionTableMetadata) (table : Elf32VersionTableMetadata) :
    (describeVersionTable loadBias fixedRecordSize raw).under (GuestMemory.reads m) = .ok table
      ↔ TableAt m loadBias raw.addressValue (if raw.count = 0 then 0 else fixedRecordSize.toNat)
        ∧ table = ⟨raw.addressValue + loadBias, raw.count⟩ := by
  by_cases hfits : raw.addressValue.toNat + loadBias.toNat < 2 ^ 32
  · rw [describeVersionTable, checkedAddGuestAddress_of_lt hfits]
    dsimp only
    by_cases hcount : raw.count = 0
    · have hempty : TableAt m loadBias raw.addressValue 0 :=
        ⟨hfits, hfits.le, fun x hx hlt => absurd hx (Nat.not_le.mpr hlt)⟩
      rw [if_neg (not_not.mpr hcount), if_pos hcount, under_pure, Except.ok.injEq]
      exact ⟨fun h => ⟨hempty, h.symm⟩, fun h => h.2.symm⟩
    · rw [if_pos hcount, if_neg hcount, under_bind]
      exact describeRange_bind_ok_iff
  · have hnone : checkedAddGuestAddress raw.addressValue loadBias.toNat = none :=
      if_pos (by omega)
    rw [describeVersionTable, hnone, under_fail]
    exact ⟨fun h => absurd h (by simp), fun h => absurd h.1.1 hfits⟩

lemma describeRelTable_ok_iff (raw : Elf32CollectedRelTableMetadata)
    (table : Elf32RelTableMetadata) :
    (describeRelTable loadBias raw).under (GuestMemory.reads m) = .ok table
      ↔ (raw.entrySize = 8 ∧ raw.size % 8 = 0 ∧ TableAt m loadBias raw.addressValue raw.size.toNat)
        ∧ table = ⟨raw.addressValue + loadBias, raw.size, raw.entrySize⟩ := by
  simp only [describeRelTable, under_bind, under_reject, under_pure, refuse_bind_ok_iff,
    describeRange_bind_ok_iff, not_not, and_assoc]
  exact and_congr_right fun hentry => by rw [hentry]

lemma describePltRelTable_ok_iff (raw : Elf32CollectedRelTableMetadata)
    (table : Elf32RelTableMetadata) :
    (describePltRelTable loadBias raw).under (GuestMemory.reads m) = .ok table
      ↔ (raw.size % 8 = 0 ∧ TableAt m loadBias raw.addressValue raw.size.toNat)
        ∧ table = ⟨raw.addressValue + loadBias, raw.size, 8⟩ := by
  simp only [describePltRelTable, under_bind, under_reject, under_pure, refuse_bind_ok_iff,
    describeRange_bind_ok_iff, not_not, and_assoc]

/-! ### Accepted arrays -/

/-- Collected metadata with the addresses of the tables rebased. -/
def Elf32CollectedLinkerMetadata.rebased (collected : Elf32CollectedLinkerMetadata)
    (loadBias : UInt32) : Elf32LinkerMetadata where
  stringTable := collected.stringTable.map fun table => ⟨table.addressValue + loadBias, table.size⟩
  symbolTable := collected.symbolTable.map fun table =>
    ⟨table.addressValue + loadBias, table.entrySize⟩
  sysvHashTable := collected.sysvHashTable.map fun table => ⟨table.addressValue + loadBias⟩
  gnuHashTable := collected.gnuHashTable.map fun table => ⟨table.addressValue + loadBias⟩
  relTable := collected.relTable.map fun table =>
    ⟨table.addressValue + loadBias, table.size, table.entrySize⟩
  pltRelTable := collected.pltRelTable.map fun table =>
    ⟨table.addressValue + loadBias, table.size, 8⟩
  initArray := collected.initArray.map fun table => ⟨table.addressValue + loadBias, table.size⟩
  finiArray := collected.finiArray.map fun table => ⟨table.addressValue + loadBias, table.size⟩
  versionSymbolTable := collected.versionSymbolAddressValue.map fun address => ⟨address + loadBias⟩
  versionDefinitionTable := collected.versionDefinitionTable.map fun table =>
    ⟨table.addressValue + loadBias, table.count⟩
  versionRequirementTable := collected.versionRequirementTable.map fun table =>
    ⟨table.addressValue + loadBias, table.count⟩
  sonameOffset := collected.sonameOffset
  neededOffsets := collected.neededOffsets
  flags1 := collected.flags1
  global := collected.global
  symbolic := collected.symbolic
  hasSymbolVersioning := collected.hasSymbolVersioning

/-- Every declared table lies in readable memory once it is rebased.  Of the symbol table, the
hash tables and the version tables, whose length is not declared, this is asked of the first
record; a version table without records only has an address. -/
structure Elf32Collection.Placed (m : MappedGuestMemory) (loadBias : UInt32)
    (c : Elf32Collection) : Prop where
  stringTable : ∀ address ∈ c.fields .strtab, ∀ size ∈ c.fields .strsz,
    TableAt m loadBias address size.toNat
  symbolTable : ∀ address ∈ c.fields .symtab, TableAt m loadBias address 16
  sysvHashTable : ∀ address ∈ c.fields .sysvHash, TableAt m loadBias address 8
  gnuHashTable : ∀ address ∈ c.fields .gnuHash, TableAt m loadBias address 16
  versionSymbols : ∀ address ∈ c.fields .versym, TableAt m loadBias address 2
  versionDefinitions : ∀ address ∈ c.fields .verdef, ∀ count ∈ c.fields .verdefnum,
    TableAt m loadBias address (if count = 0 then 0 else 20)
  versionRequirements : ∀ address ∈ c.fields .verneed, ∀ count ∈ c.fields .verneednum,
    TableAt m loadBias address (if count = 0 then 0 else 16)
  initArray : ∀ address ∈ c.fields .initArray, ∀ size ∈ c.fields .initArraySize,
    TableAt m loadBias address size.toNat
  finiArray : ∀ address ∈ c.fields .finiArray, ∀ size ∈ c.fields .finiArraySize,
    TableAt m loadBias address size.toNat
  relTable : ∀ address ∈ c.fields .rel, ∀ size ∈ c.fields .relsz,
    TableAt m loadBias address size.toNat
  pltRelTable : ∀ address ∈ c.fields .jmprel, ∀ size ∈ c.fields .pltrelsz,
    TableAt m loadBias address size.toNat

/-- What the descriptors ask of collected metadata, table by table. -/
structure Elf32CollectedLinkerMetadata.Describable (m : MappedGuestMemory) (loadBias : UInt32)
    (collected : Elf32CollectedLinkerMetadata) : Prop where
  stringTable : ∀ table ∈ collected.stringTable,
    (∀ offset ∈ collected.sonameOffset, offset < table.size)
      ∧ (∀ offset ∈ collected.neededOffsets, offset < table.size)
      ∧ TableAt m loadBias table.addressValue table.size.toNat
  symbolTable : ∀ table ∈ collected.symbolTable,
    table.entrySize = 16 ∧ TableAt m loadBias table.addressValue 16
  sysvHashTable : ∀ table ∈ collected.sysvHashTable, TableAt m loadBias table.addressValue 8
  gnuHashTable : ∀ table ∈ collected.gnuHashTable, TableAt m loadBias table.addressValue 16
  versionSymbols : ∀ address ∈ collected.versionSymbolAddressValue, TableAt m loadBias address 2
  versionDefinitions : ∀ table ∈ collected.versionDefinitionTable,
    TableAt m loadBias table.addressValue (if table.count = 0 then 0 else 20)
  versionRequirements : ∀ table ∈ collected.versionRequirementTable,
    TableAt m loadBias table.addressValue (if table.count = 0 then 0 else 16)
  initArray : ∀ table ∈ collected.initArray,
    TableAt m loadBias table.addressValue table.size.toNat
  finiArray : ∀ table ∈ collected.finiArray,
    TableAt m loadBias table.addressValue table.size.toNat
  relTable : ∀ table ∈ collected.relTable, table.entrySize = 8 ∧ table.size % 8 = 0
    ∧ TableAt m loadBias table.addressValue table.size.toNat
  pltRelTable : ∀ table ∈ collected.pltRelTable, table.size % 8 = 0
    ∧ TableAt m loadBias table.addressValue table.size.toNat

/-- Validation is the collection and then the descriptors. -/
lemma buildElf32LinkerMetadata_ok_iff {entries : List Elf32DynamicEntry}
    {metadata : Elf32LinkerMetadata} :
    (buildElf32LinkerMetadata loadBias entries).under (GuestMemory.reads m) = .ok metadata
      ↔ ∃ collected, collectElf32LinkerMetadata entries = .ok collected
        ∧ collected.Describable m loadBias ∧ metadata = collected.rebased loadBias := by
  have hhash : ∀ headerSize (raw : Elf32CollectedHashTableMetadata) table,
      (describeHashTable loadBias headerSize raw).under (GuestMemory.reads m) = .ok table
        ↔ TableAt m loadBias raw.addressValue headerSize.toNat
          ∧ table = ⟨raw.addressValue + loadBias⟩ := fun headerSize raw table => by
    rw [describeHashTable, under_bind]
    exact describeRange_bind_ok_iff
  have hversym : ∀ raw table,
      (describeVersionSymbolTable loadBias raw).under (GuestMemory.reads m) = .ok table
        ↔ TableAt m loadBias raw 2 ∧ table = ⟨raw + loadBias⟩ := fun raw table => by
    rw [describeVersionSymbolTable, under_bind]
    exact describeRange_bind_ok_iff
  have harray : ∀ (raw : Elf32CollectedFunctionArrayMetadata) table,
      (describeFunctionArray loadBias raw).under (GuestMemory.reads m) = .ok table
        ↔ TableAt m loadBias raw.addressValue raw.size.toNat
          ∧ table = ⟨raw.addressValue + loadBias, raw.size⟩ := fun raw table => by
    rw [describeFunctionArray, under_bind]
    exact describeRange_bind_ok_iff
  simp only [buildElf32LinkerMetadata, under_bind, under_ofExcept, under_pure]
  simp only [bind_ok_iff, describeOptional_ok_iff describeStringTable_ok_iff,
    describeOptional_ok_iff describeSymbolTable_ok_iff, describeOptional_ok_iff (hhash _),
    describeOptional_ok_iff hversym, describeOptional_ok_iff describeVersionTable_ok_iff,
    describeOptional_ok_iff harray, describeOptional_ok_iff describeRelTable_ok_iff,
    describeOptional_ok_iff describePltRelTable_ok_iff, Except.ok.injEq]
  refine exists_congr fun collected => and_congr_right fun _ => ?_
  constructor
  · rintro ⟨_, ⟨hstring, rfl⟩, _, ⟨hsymbol, rfl⟩, _, ⟨hsysv, rfl⟩, _, ⟨hgnu, rfl⟩,
      _, ⟨hversym, rfl⟩, _, ⟨hverdef, rfl⟩, _, ⟨hverneed, rfl⟩, _, ⟨hinit, rfl⟩,
      _, ⟨hfini, rfl⟩, _, ⟨hrel, rfl⟩, _, ⟨hplt, rfl⟩, rfl⟩
    exact ⟨⟨hstring, hsymbol, hsysv, hgnu, hversym, hverdef, hverneed, hinit, hfini, hrel, hplt⟩,
      rfl⟩
  · rintro ⟨h, rfl⟩
    exact ⟨_, ⟨h.stringTable, rfl⟩, _, ⟨h.symbolTable, rfl⟩, _, ⟨h.sysvHashTable, rfl⟩,
      _, ⟨h.gnuHashTable, rfl⟩, _, ⟨h.versionSymbols, rfl⟩, _, ⟨h.versionDefinitions, rfl⟩,
      _, ⟨h.versionRequirements, rfl⟩, _, ⟨h.initArray, rfl⟩, _, ⟨h.finiArray, rfl⟩,
      _, ⟨h.relTable, rfl⟩, _, ⟨h.pltRelTable, rfl⟩, rfl⟩

/-- A table with its address and a number that is declared apart. -/
lemma Elf32Collection.forall_mem_table {c : Elf32Collection} {field field' : SingletonField}
    (h : c.Has field ↔ c.Has field') {α : Type} (mk : UInt32 → UInt32 → α) {good : α → Prop} :
    (∀ table ∈ (c.fields field).map fun address => mk address ((c.fields field').getD 0),
        good table)
      ↔ ∀ address ∈ c.fields field, ∀ number ∈ c.fields field', good (mk address number) := by
  rw [Has, Has] at h
  cases hfield : c.fields field with
  | none => simp
  | some address =>
      rw [hfield] at h
      obtain ⟨number, hnumber⟩ := Option.isSome_iff_exists.mp (h.mp rfl)
      simp [hnumber]

/-- The descriptors of a complete collection. -/
lemma Elf32Collection.Complete.describable_iff {c : Elf32Collection} (h : c.Complete) :
    c.metadata.Describable m loadBias
      ↔ ((∀ size ∈ c.fields .strsz, (∀ offset ∈ c.fields .soname, offset < size)
            ∧ ∀ offset ∈ c.neededOffsets, offset < size)
          ∧ (∀ size ∈ c.fields .syment, size = 16)
          ∧ (∀ size ∈ c.fields .relent, size = 8)
          ∧ (∀ size ∈ c.fields .relsz, size % 8 = 0)
          ∧ ∀ size ∈ c.fields .pltrelsz, size % 8 = 0)
        ∧ c.Placed m loadBias := by
  have haddress : ∀ {field field' : SingletonField}, (c.Has field ↔ c.Has field') →
      ∀ number ∈ c.fields field', ∃ address, address ∈ c.fields field := fun hboth number hnumber =>
    Option.isSome_iff_exists.mp (hboth.mpr (Option.isSome_of_mem hnumber))
  have hone : ∀ {α : Type} (f : UInt32 → α) {x : Option UInt32} {good : α → Prop},
      (∀ table ∈ x.map f, good table) ↔ ∀ address ∈ x, good (f address) := by simp
  constructor
  · intro hd
    have hstring := (forall_mem_table h.stringTable Elf32CollectedStringTableMetadata.mk).mp
      hd.stringTable
    have hsymbol := (forall_mem_table h.symbolTable Elf32CollectedSymbolTableMetadata.mk).mp
      hd.symbolTable
    have hrel := (forall_mem_table h.relTable.1 fun address size =>
      (⟨address, size, (c.fields .relent).getD 0⟩ : Elf32CollectedRelTableMetadata)).mp hd.relTable
    have hplt := (forall_mem_table h.pltRelTable.1 fun address size =>
      (⟨address, size, 8⟩ : Elf32CollectedRelTableMetadata)).mp hd.pltRelTable
    refine ⟨⟨fun size hsize => ?_, fun size hsize => ?_, fun size hsize => ?_, fun size hsize => ?_,
      fun size hsize => ?_⟩, ⟨?_, ?_, ?_, ?_, ?_, ?_, ?_, ?_, ?_, ?_, ?_⟩⟩
    · obtain ⟨address, hmem⟩ := haddress h.stringTable size hsize
      exact ⟨(hstring address hmem size hsize).1, (hstring address hmem size hsize).2.1⟩
    · obtain ⟨address, hmem⟩ := haddress h.symbolTable size hsize
      exact (hsymbol address hmem size hsize).1
    · obtain ⟨address, hmem⟩ := haddress h.relTable.2 size hsize
      obtain ⟨total, htotal⟩ := haddress h.relTable.1.symm address hmem
      exact ((congrArg (·.getD 0) hsize).symm.trans (hrel address hmem total htotal).1 :)
    · obtain ⟨address, hmem⟩ := haddress h.relTable.1 size hsize
      exact (hrel address hmem size hsize).2.1
    · obtain ⟨address, hmem⟩ := haddress h.pltRelTable.1 size hsize
      exact (hplt address hmem size hsize).1
    · exact fun address hmem size hsize => (hstring address hmem size hsize).2.2
    · intro address hmem
      obtain ⟨size, hsize⟩ := haddress h.symbolTable.symm address hmem
      exact (hsymbol address hmem size hsize).2
    · exact (hone _).mp hd.sysvHashTable
    · exact (hone _).mp hd.gnuHashTable
    · exact hd.versionSymbols
    · exact (forall_mem_table h.versionDefinitions Elf32CollectedVersionTableMetadata.mk).mp
        hd.versionDefinitions
    · exact (forall_mem_table h.versionRequirements Elf32CollectedVersionTableMetadata.mk).mp
        hd.versionRequirements
    · exact (forall_mem_table h.initArray Elf32CollectedFunctionArrayMetadata.mk).mp hd.initArray
    · exact (forall_mem_table h.finiArray Elf32CollectedFunctionArrayMetadata.mk).mp hd.finiArray
    · exact fun address hmem size hsize => (hrel address hmem size hsize).2.2
    · exact fun address hmem size hsize => (hplt address hmem size hsize).2
  · rintro ⟨⟨hnames, hsymbol, hentry, hrel, hplt⟩, hp⟩
    refine ⟨?_, ?_, ?_, ?_, hp.versionSymbols, ?_, ?_, ?_, ?_, ?_, ?_⟩
    · exact (forall_mem_table h.stringTable Elf32CollectedStringTableMetadata.mk).mpr
        fun address hmem size hsize => ⟨(hnames size hsize).1, (hnames size hsize).2,
          hp.stringTable address hmem size hsize⟩
    · exact (forall_mem_table h.symbolTable Elf32CollectedSymbolTableMetadata.mk).mpr
        fun address hmem size hsize => ⟨hsymbol size hsize, hp.symbolTable address hmem⟩
    · exact (hone _).mpr hp.sysvHashTable
    · exact (hone _).mpr hp.gnuHashTable
    · exact (forall_mem_table h.versionDefinitions Elf32CollectedVersionTableMetadata.mk).mpr
        hp.versionDefinitions
    · exact (forall_mem_table h.versionRequirements Elf32CollectedVersionTableMetadata.mk).mpr
        hp.versionRequirements
    · exact (forall_mem_table h.initArray Elf32CollectedFunctionArrayMetadata.mk).mpr hp.initArray
    · exact (forall_mem_table h.finiArray Elf32CollectedFunctionArrayMetadata.mk).mpr hp.finiArray
    · refine (forall_mem_table h.relTable.1 fun address size =>
        (⟨address, size, (c.fields .relent).getD 0⟩ : Elf32CollectedRelTableMetadata)).mpr
        fun address hmem size hsize => ?_
      obtain ⟨entry, hmem'⟩ := haddress h.relTable.2.symm address hmem
      have hgetD : (c.fields .relent).getD 0 = entry := congrArg (·.getD 0) hmem'
      exact ⟨hgetD.trans (hentry entry hmem'), hrel size hsize,
        hp.relTable address hmem size hsize⟩
    · exact (forall_mem_table h.pltRelTable.1 fun address size =>
        (⟨address, size, 8⟩ : Elf32CollectedRelTableMetadata)).mpr
        fun address hmem size hsize => ⟨hplt size hsize, hp.pltRelTable address hmem size hsize⟩

/-- The properties of the dynamic arrays that validation accepts. -/
structure WellFormedDynamic (m : MappedGuestMemory) (loadBias : UInt32)
    (entries : List Elf32DynamicEntry) : Prop where
  once : (beforeNull entries).Pairwise SlotsApart
  complete : (declaration (beforeNull entries)).Complete
  sized : (declaration (beforeNull entries)).Sized
  placed : (declaration (beforeNull entries)).Placed m loadBias

/-- **Validation accepts exactly the well-formed dynamic arrays.**  It succeeds when before the
first `DT_NULL` no recognised tag but `DT_NEEDED` is repeated, the tags that go together do,
the declared sizes, types and offsets are supported and every declared table lies in readable
memory; other tags may stand there as often as they like.  The metadata is then what the array
declares, with its addresses rebased. -/
theorem metadata_accepts {entries : List Elf32DynamicEntry} {metadata : Elf32LinkerMetadata} :
    (buildElf32LinkerMetadata loadBias entries).under (GuestMemory.reads m) = .ok metadata
      ↔ WellFormedDynamic m loadBias entries
        ∧ metadata = (declaration (beforeNull entries)).metadata.rebased loadBias := by
  rw [buildElf32LinkerMetadata_ok_iff]
  constructor
  · rintro ⟨collected, hcollected, htables, rfl⟩
    obtain ⟨honce, hcheck, rfl⟩ := collectElf32LinkerMetadata_ok_iff.mp hcollected
    obtain ⟨hcomplete, htype, hinit, hfini⟩ := Elf32Collection.check_ok_iff.mp hcheck
    obtain ⟨⟨hnames, hsymbol, hentry, hrel, hplt⟩, hplaced⟩ := hcomplete.describable_iff.mp htables
    exact ⟨⟨honce, hcomplete, ⟨hsymbol, hentry, hrel, hplt, htype, hinit, hfini, hnames⟩, hplaced⟩,
      rfl⟩
  · rintro ⟨h, rfl⟩
    have hs := h.sized
    refine ⟨_, collectElf32LinkerMetadata_ok_iff.mpr ⟨h.once, ?_, rfl⟩, ?_, rfl⟩
    · exact Elf32Collection.check_ok_iff.mpr
        ⟨h.complete, hs.pltRelType, hs.initArraySize, hs.finiArraySize⟩
    · exact h.complete.describable_iff.mpr
        ⟨⟨hs.names, hs.symbolEntry, hs.relEntry, hs.relSize, hs.pltRelSize⟩, h.placed⟩

end LibA32Android
