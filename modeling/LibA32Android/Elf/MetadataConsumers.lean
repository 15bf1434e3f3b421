/-
What validated metadata spares its consumers.

`buildElf32LinkerMetadata` reads every declared range once.  The readers of the
strings, the function arrays and the relocation tables compute addresses of
their own and read in other units, but stay inside these ranges.

* `ValidatedMetadata`: what a successful validation leaves of the descriptors;
* `readElf32StringTableEntry_settled`, `decodeElf32FunctionArray_settled`,
  `buildRelocationPlanForTable_settled`: the errors left to a consumer of a
  readable range;
* `buildElf32LinkerMetadata_suffices`: validation is enough for each of them.
-/
import LibA32Android.Elf.Lifecycle
import LibA32Android.Elf.LoadedDynamic
import LibA32Android.Elf.Relocation
import LibA32Android.Elf.StringScan

namespace LibA32Android

open Foundations QueryProgram

variable {m : MappedGuestMemory}

/-! ### Validated ranges -/

/-- The chunk loop covers the range from the offset on. -/
lemma readableTableFrom_true {ε : Type} {address : UInt32} {size rounds offset : ℕ}
    (hrounds : size ≤ offset + rounds) (hdone : m.Readable address.toNat offset)
    (h : (readableTableFrom address size rounds offset : GuestRead ε Bool).under
      (GuestMemory.reads m) = .ok true) :
    m.Readable address.toNat size := by
  induction rounds generalizing offset with
  | zero => exact hdone.sub le_rfl (by omega)
  | succ rounds ih =>
      rw [readableTableFrom] at h
      split at h
      · dsimp only at h
        split at h
        · cases h
        · rename_i hlt hcurrent
          have hnat : (UInt32.ofNat (address.toNat + offset)).toNat = address.toNat + offset :=
            UInt32.toNat_ofNat_of_lt' (show address.toNat + offset < 2 ^ 32 by omega)
          simp only [under_bind, readBytes, under_query, ok_bind] at h
          cases hread : GuestMemory.reads m (UInt32.ofNat (address.toNat + offset),
              min 256 (size - offset)) with
          | none =>
              rw [hread] at h
              cases h
          | some bytes =>
              rw [hread] at h
              have hchunk := (MappedGuestMemory.read_eq_some_iff_readable.mp hread).1
              rw [hnat] at hchunk
              exact ih (by omega) (hdone.append hchunk) h
      · exact hdone.sub le_rfl (by omega)

/-- The chunk loop passes over a readable range. -/
lemma readableTableFrom_of_readable {ε : Type} {address : UInt32} {size : ℕ}
    (h : m.Readable address.toNat size) (rounds offset : ℕ) :
    (readableTableFrom address size rounds offset : GuestRead ε Bool).under
      (GuestMemory.reads m) = .ok true := by
  induction rounds generalizing offset with
  | zero => rfl
  | succ rounds ih =>
      rw [readableTableFrom]
      split
      · rename_i hlt
        have hend := h.1
        have hread : GuestMemory.reads m (UInt32.ofNat (address.toNat + offset),
            min 256 (size - offset)) = some _ := h.read (by omega) (by omega) (by omega)
        rw [if_neg (by omega)]
        simp only [under_bind, readBytes, under_query, ok_bind, hread]
        exact ih _
      · rfl

/-- **A checked table** is a readable range. -/
lemma readableTable_true_iff {ε : Type} {address : UInt32} {size : ℕ} :
    (readableTable address size : GuestRead ε Bool).under (GuestMemory.reads m) = .ok true
      ↔ m.Readable address.toNat size := by
  have hempty : m.Readable address.toNat 0 :=
    ⟨address.toNat_lt.le, fun x hx hlt => absurd hx (Nat.not_le.mpr hlt)⟩
  rw [readableTable]
  split
  · rename_i h0
    rw [h0]
    exact ⟨fun _ => hempty, fun _ => rfl⟩
  · split
    · rename_i hfits
      refine ⟨fun h => absurd h (by simp), fun h => absurd hfits ?_⟩
      rw [rangeFits, decide_eq_true h.1]
      decide
    · exact ⟨fun h => readableTableFrom_true (by omega) hempty h,
        fun h => readableTableFrom_of_readable h _ _⟩

/-- The two files have the same chunk loop. -/
lemma readableRangeFrom_eq {ε : Type} (guestAddress size : UInt32) (rounds offset : ℕ) :
    (readableRangeFrom guestAddress size rounds offset : GuestRead ε Bool)
      = readableTableFrom guestAddress size.toNat rounds offset := by
  induction rounds generalizing offset with
  | zero => rfl
  | succ rounds ih =>
      have hrest : readableRangeFrom guestAddress size rounds
          = (readableTableFrom guestAddress size.toNat rounds : ℕ → GuestRead ε Bool) := funext ih
      unfold readableRangeFrom readableTableFrom
      exact hrest ▸ rfl

lemma readableRange_true {ε : Type} {guestAddress size : UInt32}
    (h : (readableRange guestAddress size : GuestRead ε Bool).under (GuestMemory.reads m)
      = .ok true) : m.Readable guestAddress.toNat size.toNat := by
  have hempty : m.Readable guestAddress.toNat 0 :=
    ⟨guestAddress.toNat_lt.le, fun x hx hlt => absurd hx (Nat.not_le.mpr hlt)⟩
  rw [readableRange] at h
  split at h
  · rename_i h0
    rw [h0]
    exact hempty
  · rw [readableRangeFrom_eq] at h
    exact readableTableFrom_true (by omega) hempty h

lemma describeRange_readable {loadBias addressValue size guestAddress : UInt32}
    (h : (describeRange loadBias addressValue size).under (GuestMemory.reads m)
      = .ok guestAddress) : m.Readable guestAddress.toNat size.toNat := by
  rw [describeRange] at h
  split at h
  · cases h
  · simp only [under_bind, under_reject, refuse_bind_ok_iff] at h
    obtain ⟨-, h⟩ := h
    obtain ⟨readable, hreadable, h⟩ := bind_ok_iff.mp h
    simp only [refuse_bind_ok_iff, under_pure] at h
    obtain ⟨hok, hret⟩ := h
    cases hret
    simp only [Bool.not_eq_true', Bool.not_eq_false] at hok
    exact readableRange_true (hok ▸ hreadable)

/-! ### Validated metadata -/

/-- What validation leaves: every string offset lies in a readable string table,
function arrays are readable and consist of words, relocation tables are
readable and consist of entries of eight bytes. -/
structure ValidatedMetadata (m : MappedGuestMemory) (metadata : Elf32LinkerMetadata) : Prop where
  strings : metadata.sonameOffset.isSome ∨ metadata.neededOffsets ≠ [] →
    metadata.stringTable.isSome
  stringTable : ∀ table ∈ metadata.stringTable, m.Readable table.guestAddress.toNat table.size.toNat
    ∧ (∀ offset ∈ metadata.sonameOffset, offset < table.size)
    ∧ ∀ offset ∈ metadata.neededOffsets, offset < table.size
  functionArray : ∀ array, array ∈ metadata.initArray ∨ array ∈ metadata.finiArray →
    m.Readable array.guestAddress.toNat array.size.toNat ∧ array.size % 4 = 0
  relTable : ∀ kind, ∀ table ∈ selectedTable metadata kind,
    m.Readable table.guestAddress.toNat table.size.toNat
      ∧ table.entrySize = 8 ∧ table.size % 8 = 0

lemma describeOptional_ok {α β : Type} {collected : Option α}
    {describe : α → GuestRead Elf32LinkerMetadataError β} {described : Option β}
    {o : UInt32 × ℕ → Option (List UInt8)}
    (h : (describeOptional collected describe).under o = .ok described) :
    described.isSome = collected.isSome
      ∧ ∀ b ∈ described, ∃ a ∈ collected, (describe a).under o = .ok b := by
  cases collected with
  | none =>
      cases h
      exact ⟨rfl, fun b hb => nomatch hb⟩
  | some a =>
      rw [describeOptional, under_bind] at h
      obtain ⟨b, hb, hret⟩ := bind_ok_iff.mp h
      cases hret
      refine ⟨rfl, fun b' hb' => ⟨a, rfl, ?_⟩⟩
      cases hb'
      exact hb

/-- The collected sizes of function arrays are whole numbers of words, and
string offsets come with a string table. -/
lemma collectElf32LinkerMetadata_ok {entries : List Elf32DynamicEntry}
    {collected : Elf32CollectedLinkerMetadata}
    (h : collectElf32LinkerMetadata entries = .ok collected) :
    (collected.sonameOffset.isSome ∨ collected.neededOffsets ≠ [] →
        collected.stringTable.isSome)
      ∧ ∀ array, array ∈ collected.initArray ∨ array ∈ collected.finiArray →
        array.size % 4 = 0 := by
  obtain ⟨c, -, h⟩ := bind_ok_iff.mp h
  obtain ⟨_, hcheck, hret⟩ := bind_ok_iff.mp h
  cases hret
  simp only [Elf32Collection.check, refuse_bind_ok_iff] at hcheck
  obtain ⟨hstring, -, -, -, -, -, -, hsize, -⟩ := hcheck
  have hwords : ∀ field, ¬c.badArraySize field → ((c.fields field).getD 0) % 4 = 0 := by
    intro field hfield
    rw [Elf32Collection.badArraySize] at hfield
    cases hvalue : c.fields field with
    | none => rfl
    | some size =>
        rw [hvalue] at hfield
        simpa using hfield
  refine ⟨fun hname => ?_, ?_⟩
  · by_contra hnone
    refine hstring (Or.inr ⟨hname, ?_⟩)
    simpa [Elf32Collection.metadata] using hnone
  · rintro array (harray | harray)
    · obtain ⟨address, -, rfl⟩ := Option.map_eq_some_iff.mp harray
      exact hwords .initArraySize fun hbad => hsize (Or.inl hbad)
    · obtain ⟨address, -, rfl⟩ := Option.map_eq_some_iff.mp harray
      exact hwords .finiArraySize fun hbad => hsize (Or.inr hbad)

lemma describeFunctionArray_ok {loadBias : UInt32}
    {collected : Elf32CollectedFunctionArrayMetadata} {array : Elf32FunctionArrayMetadata}
    (h : (describeFunctionArray loadBias collected).under (GuestMemory.reads m) = .ok array) :
    m.Readable array.guestAddress.toNat array.size.toNat ∧ array.size = collected.size := by
  rw [describeFunctionArray, under_bind] at h
  obtain ⟨guestAddress, hrange, hret⟩ := bind_ok_iff.mp h
  cases hret
  exact ⟨describeRange_readable hrange, rfl⟩

lemma describeRelTable_ok {loadBias : UInt32} {collected : Elf32CollectedRelTableMetadata}
    {table : Elf32RelTableMetadata}
    (h : (describeRelTable loadBias collected).under (GuestMemory.reads m) = .ok table) :
    m.Readable table.guestAddress.toNat table.size.toNat
      ∧ table.entrySize = 8 ∧ table.size % 8 = 0 := by
  simp only [describeRelTable, under_bind, under_reject, refuse_bind_ok_iff, not_not] at h
  obtain ⟨hentry, hsize, h⟩ := h
  obtain ⟨guestAddress, hrange, hret⟩ := bind_ok_iff.mp h
  cases hret
  exact ⟨describeRange_readable hrange, hentry, hentry ▸ hsize⟩

lemma describePltRelTable_ok {loadBias : UInt32} {collected : Elf32CollectedRelTableMetadata}
    {table : Elf32RelTableMetadata}
    (h : (describePltRelTable loadBias collected).under (GuestMemory.reads m) = .ok table) :
    m.Readable table.guestAddress.toNat table.size.toNat
      ∧ table.entrySize = 8 ∧ table.size % 8 = 0 := by
  simp only [describePltRelTable, under_bind, under_reject, refuse_bind_ok_iff, not_not] at h
  obtain ⟨hsize, h⟩ := h
  obtain ⟨guestAddress, hrange, hret⟩ := bind_ok_iff.mp h
  cases hret
  exact ⟨describeRange_readable hrange, rfl, hsize⟩

lemma describeStringTable_ok {loadBias : UInt32} {collected : Elf32CollectedLinkerMetadata}
    {raw : Elf32CollectedStringTableMetadata} {table : Elf32StringTableMetadata}
    (h : (describeStringTable loadBias collected raw).under (GuestMemory.reads m) = .ok table) :
    m.Readable table.guestAddress.toNat table.size.toNat
      ∧ (∀ offset ∈ collected.sonameOffset, offset < table.size)
      ∧ ∀ offset ∈ collected.neededOffsets, offset < table.size := by
  simp only [describeStringTable, under_bind, under_reject, refuse_bind_ok_iff] at h
  obtain ⟨hsoname, hneeded, h⟩ := h
  obtain ⟨guestAddress, hrange, hret⟩ := bind_ok_iff.mp h
  cases hret
  refine ⟨describeRange_readable hrange, fun offset hoffset => ?_, fun offset hoffset => ?_⟩
  · exact UInt32.not_le.mp fun hge => hsoname ⟨offset, hoffset, hge⟩
  · exact UInt32.not_le.mp fun hge => hneeded ⟨offset, hoffset, hge⟩

/-- Successful validation validates. -/
lemma buildElf32LinkerMetadata_validated {loadBias : UInt32} {entries : List Elf32DynamicEntry}
    {metadata : Elf32LinkerMetadata}
    (h : (buildElf32LinkerMetadata loadBias entries).under (GuestMemory.reads m) = .ok metadata) :
    ValidatedMetadata m metadata := by
  simp only [buildElf32LinkerMetadata, under_bind, under_ofExcept, bind_ok_iff] at h
  obtain ⟨collected, hcollected, stringTable, hstring, _, -, _, -, _, -, _, -, _, -, _, -,
    initArray, hinit, finiArray, hfini, relTable, hrel, pltRelTable, hplt, hret⟩ := h
  cases hret
  obtain ⟨hneeds, hwords⟩ := collectElf32LinkerMetadata_ok hcollected
  refine ⟨fun hname => ?_, fun table htable => ?_, ?_, ?_⟩
  · exact (describeOptional_ok hstring).1 ▸ hneeds hname
  · obtain ⟨raw, -, hdescribed⟩ := (describeOptional_ok hstring).2 table htable
    exact describeStringTable_ok hdescribed
  · rintro array (harray | harray)
    · obtain ⟨raw, hraw, hdescribed⟩ := (describeOptional_ok hinit).2 array harray
      obtain ⟨hreadable, hsize⟩ := describeFunctionArray_ok hdescribed
      exact ⟨hreadable, hsize ▸ hwords raw (Or.inl hraw)⟩
    · obtain ⟨raw, hraw, hdescribed⟩ := (describeOptional_ok hfini).2 array harray
      obtain ⟨hreadable, hsize⟩ := describeFunctionArray_ok hdescribed
      exact ⟨hreadable, hsize ▸ hwords raw (Or.inr hraw)⟩
  · intro kind table htable
    cases kind with
    | mainRel =>
        obtain ⟨raw, -, hdescribed⟩ := (describeOptional_ok hrel).2 table htable
        exact describeRelTable_ok hdescribed
    | pltRel =>
        obtain ⟨raw, -, hdescribed⟩ := (describeOptional_ok hplt).2 table htable
        exact describePltRelTable_ok hdescribed

/-! ### The consumers -/

/-- The errors of a string that is not properly terminated. -/
def badTerminator (e : Elf32LinkerStringError) : Prop :=
  e = .unterminatedString ∨ e = .stringTooLong

lemma readElf32StringTableEntry_settled {table : Elf32StringTableMetadata} {offset : UInt32}
    {options : Elf32LinkerStringOptions}
    (h : m.Readable table.guestAddress.toNat table.size.toNat) (hoffset : offset < table.size) :
    Settled badTerminator
      ((readElf32StringTableEntry table offset options).under (GuestMemory.reads m)) := by
  rw [readElf32StringTableEntry_scan options h hoffset]
  generalize scanChunk _ _ _ _ = scan
  cases scan with
  | terminated value => exact settled_ok _
  | tooLong => exact settled_error.mpr (Or.inr rfl)
  | more value => exact settled_error.mpr (Or.inl rfl)

lemma readNeeded_settled {table : Elf32StringTableMetadata} {options : Elf32LinkerStringOptions}
    (h : m.Readable table.guestAddress.toNat table.size.toNat) {offsets : List UInt32}
    (hoffsets : ∀ offset ∈ offsets, offset < table.size) :
    Settled badTerminator ((readNeeded table options offsets).under (GuestMemory.reads m)) := by
  induction offsets with
  | nil => exact settled_ok _
  | cons offset offsets ih =>
      rw [readNeeded, under_bind]
      refine (readElf32StringTableEntry_settled h (hoffsets offset List.mem_cons_self)).bind
        fun name _ => ?_
      rw [under_bind]
      exact (ih fun offset' hmem => hoffsets offset' (List.mem_cons_of_mem _ hmem)).bind
        fun names _ => settled_ok _

lemma ValidatedMetadata.strings_settled {metadata : Elf32LinkerMetadata}
    {options : Elf32LinkerStringOptions} (h : ValidatedMetadata m metadata) :
    Settled badTerminator
      ((buildElf32LinkerStrings metadata options).under (GuestMemory.reads m)) := by
  rw [buildElf32LinkerStrings]
  split
  · exact settled_ok _
  rename_i hname
  have hsome : metadata.stringTable.isSome := h.strings (by
    rw [Option.isSome_iff_ne_none, ← not_and_or]
    simpa using hname)
  obtain ⟨table, htable⟩ := Option.isSome_iff_exists.mp hsome
  obtain ⟨hreadable, hsoname, hneeded⟩ := h.stringTable table htable
  -- with or without a soname the needed names follow
  have hrest : ∀ soname : Option ByteString, Settled badTerminator
      ((do
        let needed ← readNeeded table options metadata.neededOffsets
        return { soname, needed } : GuestRead Elf32LinkerStringError Elf32LinkerStrings).under
          (GuestMemory.reads m)) := by
    intro soname
    rw [under_bind]
    exact (readNeeded_settled hreadable hneeded).bind fun needed _ => settled_ok _
  rw [htable]
  dsimp only
  cases hoffset : metadata.sonameOffset with
  | none => exact hrest none
  | some offset =>
      dsimp only
      rw [under_bind]
      exact (readElf32StringTableEntry_settled hreadable (hsoname offset hoffset)).bind
        fun name _ => hrest (some name)

lemma decodeFunctionEntries_settled {array : Elf32FunctionArrayMetadata} {left index : ℕ}
    (h : m.Readable array.guestAddress.toNat array.size.toNat)
    (hcount : (index + left) * 4 ≤ array.size.toNat) :
    Settled (· = .tooManyEntries)
      ((decodeFunctionEntries array left index).under (GuestMemory.reads m)) := by
  induction left generalizing index with
  | zero => exact settled_ok _
  | succ left ih =>
      have hend := h.1
      rw [decodeFunctionEntries, under_bind, under_reject]
      refine Settled.refuse_bind (fun hbad => ?_) fun _ => ?_
      · omega
      · rw [under_bind, readBytes, under_query, ok_bind,
          h.read (Nat.le_add_right _ _) (by omega) (by omega)]
        dsimp only
        rw [under_bind]
        exact (ih (by omega)).bind fun entries _ => settled_ok _

lemma decodeElf32FunctionArray_settled {array : Elf32FunctionArrayMetadata}
    {options : Elf32FunctionArrayDecodeOptions}
    (h : m.Readable array.guestAddress.toNat array.size.toNat) (hsize : array.size % 4 = 0) :
    Settled (· = .tooManyEntries)
      ((decodeElf32FunctionArray array options).under (GuestMemory.reads m)) := by
  have hend := h.1
  have hdiv : (array.size / 4).toNat = array.size.toNat / 4 := by
    rw [UInt32.toNat_div]
    rfl
  rw [decodeElf32FunctionArray, under_bind, under_reject]
  refine Settled.refuse_bind (fun hbad => absurd hsize hbad) fun _ => ?_
  dsimp only
  rw [under_bind, under_reject]
  refine Settled.refuse_bind (fun _ => rfl) fun _ => ?_
  rw [under_bind, under_reject]
  refine Settled.refuse_bind (fun hbad => ?_) fun _ => ?_
  · omega
  · exact decodeFunctionEntries_settled h (by omega)

/-- An entry of a readable table is read. -/
lemma readRelocationBytes_succeeds {table : Elf32RelTableMetadata} {i : ℕ}
    (h : m.Readable table.guestAddress.toNat table.size.toNat)
    (hi : (i + 1) * 8 ≤ table.size.toNat) :
    ∃ bytes, (readRelocationBytes table i).under (GuestMemory.reads m) = .ok bytes := by
  have hend := h.1
  have hlt : table.guestAddress.toNat + i * 8 < 2 ^ 32 := by omega
  rw [readRelocationBytes, checkedAddGuestAddress, if_neg (by omega)]
  dsimp only
  rw [under_bind, readBytes, under_query, ok_bind, h.read (Nat.le_add_right _ _) (by omega) hlt]
  exact ⟨_, rfl⟩

lemma planEntry_settled {loadBias : UInt32} {table : Elf32RelTableMetadata}
    {kind : Elf32RelocationTable} {i : ℕ}
    (h : m.Readable table.guestAddress.toNat table.size.toNat)
    (hi : (i + 1) * 8 ≤ table.size.toNat) :
    Settled (· ≠ .relocationReadFailed)
      ((planEntry loadBias table kind i).under (GuestMemory.reads m)) := by
  obtain ⟨bytes, hbytes⟩ := readRelocationBytes_succeeds h hi
  rw [planEntry, under_bind, hbytes, ok_bind]
  dsimp only
  rw [under_bind, under_reject]
  refine Settled.refuse_bind (fun _ => by decide) fun _ => ?_
  split
  · exact settled_error.mpr (by decide)
  · rw [under_ite]
    split
    · exact settled_ok _
    · rw [under_bind, under_reject]
      refine Settled.refuse_bind (fun _ => by decide) fun _ => ?_
      rw [under_bind]
      refine Settled.bind ?_ fun original _ => settled_ok _
      rw [wordOr, under_bind]
      refine Settled.bind (fun e he => ?_) fun word _ => ?_
      · rw [readU32, under_bind, readBytes, under_query, ok_bind] at he
        cases he
      · cases word with
        | none => exact settled_error.mpr (by decide)
        | some word => exact settled_ok _

lemma planEntries_settled {loadBias : UInt32} {table : Elf32RelTableMetadata}
    {kind : Elf32RelocationTable} {left i : ℕ} {writeTargets : List UInt32}
    (h : m.Readable table.guestAddress.toNat table.size.toNat)
    (hcount : (i + left) * 8 ≤ table.size.toNat) :
    Settled (· ≠ .relocationReadFailed)
      ((planEntries loadBias table kind left i writeTargets).under (GuestMemory.reads m)) := by
  induction left generalizing i writeTargets with
  | zero => exact settled_ok _
  | succ left ih =>
      rw [planEntries, under_bind]
      refine (planEntry_settled h (by omega)).bind fun entry _ => ?_
      rw [under_ite]
      split
      · rw [under_bind]
        exact (ih (by omega)).bind fun entries _ => settled_ok _
      · rw [under_bind, under_reject]
        refine Settled.refuse_bind (fun _ => by decide) fun _ => ?_
        rw [under_bind]
        exact (ih (by omega)).bind fun entries _ => settled_ok _

lemma ValidatedMetadata.plan_settled {graph : Elf32DependencyGraph} {objectIndex : ℕ}
    {options : Elf32RelocationOptions} {kind : Elf32RelocationTable}
    (h : ValidatedMetadata m (graph.objects.getD objectIndex default).linkerMetadata) :
    Settled (· ≠ .relocationReadFailed)
      ((buildRelocationPlanForTable graph objectIndex options kind).under
        (GuestMemory.reads m)) := by
  rw [buildRelocationPlanForTable, under_bind, under_reject]
  refine Settled.refuse_bind (fun _ => by decide) fun _ => ?_
  dsimp only
  cases htable : selectedTable (graph.objects.getD objectIndex default).linkerMetadata kind with
  | none => exact settled_ok _
  | some table =>
      obtain ⟨hreadable, hentry, hsize⟩ := h.relTable kind table htable
      have hdiv : (table.size / 8).toNat = table.size.toNat / 8 := by
        rw [UInt32.toNat_div]
        rfl
      dsimp only
      rw [under_bind, under_reject]
      refine Settled.refuse_bind (fun _ => by decide) fun _ => ?_
      rw [under_bind, under_reject]
      refine Settled.refuse_bind (fun hbad => ?_) fun _ => ?_
      · exact absurd hbad (by simp [hentry, hsize])
      rw [under_bind, under_reject]
      refine Settled.refuse_bind (fun _ => by decide) fun _ => ?_
      rw [under_bind]
      exact (planEntries_settled hreadable (by omega)).bind fun entries _ => settled_ok _

/-- **Validated metadata is enough for its consumers.**  On the memory on which
validation succeeded, strings fail only for want of a terminator within the
limit, function arrays only for their number of entries, and the plan of either
relocation table never for its own reads. -/
theorem buildElf32LinkerMetadata_suffices {loadBias : UInt32} {entries : List Elf32DynamicEntry}
    {metadata : Elf32LinkerMetadata}
    (h : (buildElf32LinkerMetadata loadBias entries).under (GuestMemory.reads m)
      = .ok metadata) :
    (∀ options e, (buildElf32LinkerStrings metadata options).under (GuestMemory.reads m)
        = .error e → e = .unterminatedString ∨ e = .stringTooLong)
      ∧ (∀ array, array ∈ metadata.initArray ∨ array ∈ metadata.finiArray → ∀ options e,
        (decodeElf32FunctionArray array options).under (GuestMemory.reads m) = .error e →
          e = .tooManyEntries)
      ∧ ∀ graph objectIndex options kind,
        (graph.objects.getD objectIndex default).linkerMetadata = metadata →
          (buildRelocationPlanForTable graph objectIndex options kind).under
            (GuestMemory.reads m) ≠ .error .relocationReadFailed := by
  have hvalid := buildElf32LinkerMetadata_validated h
  refine ⟨fun options => hvalid.strings_settled, fun array harray options => ?_, ?_⟩
  · obtain ⟨hreadable, hsize⟩ := hvalid.functionArray array harray
    exact decodeElf32FunctionArray_settled hreadable hsize
  · rintro graph objectIndex options kind rfl herror
    exact hvalid.plan_settled _ herror rfl

theorem buildElf32LinkerMetadata_suffices_needy : ∃ metadata,
    (buildElf32LinkerMetadata 0x10000 [⟨1, 1⟩, ⟨5, 148⟩, ⟨10, 3⟩, ⟨0, 0⟩]).under
        (GuestMemory.reads (loadElf32 vacantMemory needyImage { dynamicBase := some 0x10000 }).2)
      = .ok metadata
    ∧ metadata.neededOffsets = [1]
    ∧ ∀ options e, (buildElf32LinkerStrings metadata options).under
        (GuestMemory.reads (loadElf32 vacantMemory needyImage { dynamicBase := some 0x10000 }).2)
      = .error e → e = .unterminatedString ∨ e = .stringTooLong := by
  have h : (buildElf32LinkerMetadata 0x10000 [⟨1, 1⟩, ⟨5, 148⟩, ⟨10, 3⟩, ⟨0, 0⟩]).under
        (GuestMemory.reads (loadElf32 vacantMemory needyImage { dynamicBase := some 0x10000 }).2)
      = .ok { stringTable := some ⟨0x10094, 3⟩, neededOffsets := [1] } := by decide +kernel
  exact ⟨_, h, rfl, (buildElf32LinkerMetadata_suffices h).1⟩

end LibA32Android
