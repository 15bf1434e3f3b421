/-
The dynamic array in memory is the one in the file.

* `dynamicArray`: decoding a dynamic array from bytes: the 8-byte entries up to
  the first `DT_NULL`;
* `parseDynamicEntries_under`: the parser's walk over a memory that delivers the
  entries one by one;
* `Prepared.dynamic_bytes`: after a load the dynamic range holds the file bytes
  of its header, on readable pages;
* `parseElf32Dynamic_of_load`: parsing after a load is decoding the file.
-/
import LibA32Android.Elf.LinkerMetadata
import LibA32Android.Elf.LoadEffect
import LibA32Android.Elf.WellFormedImage

namespace LibA32Android

open Foundations

/-! ### Decoding a dynamic array -/

/-- The `i`-th entry of an array of 8-byte entries. -/
def dynamicEntryAt (bytes : List UInt8) (i : ℕ) : Elf32DynamicEntry :=
  decodeDynamicEntry ((bytes.drop (8 * i)).take 8)

/-- Entries up to and including the first `DT_NULL`. -/
def throughNull (entries : List Elf32DynamicEntry) :
    Except Elf32DynamicError (List Elf32DynamicEntry) :=
  match entries.find? fun entry => entry.tag = 0 with
  | none => .error .unterminated
  | some last => .ok ((entries.takeWhile fun entry => entry.tag ≠ 0) ++ [last])

/-- The dynamic array in a string of bytes. -/
def dynamicArray (bytes : List UInt8) : Except Elf32DynamicError (List Elf32DynamicEntry) :=
  if bytes.length % 8 ≠ 0 then .error .truncatedEntry
  else throughNull ((List.range (bytes.length / 8)).map (dynamicEntryAt bytes))

lemma throughNull_cons (entry : Elf32DynamicEntry) (entries : List Elf32DynamicEntry) :
    throughNull (entry :: entries)
      = if entry.tag = 0 then .ok [entry]
        else throughNull entries >>= fun rest => .ok (entry :: rest) := by
  rw [throughNull, List.find?_cons]
  by_cases h : entry.tag = 0
  · simp [h]
  · simp only [h, decide_false, if_false, throughNull]
    cases entries.find? fun entry => entry.tag = 0 <;> simp [h]

lemma dynamicArray_error {bytes : List UInt8} {e : Elf32DynamicError}
    (h : dynamicArray bytes = .error e) : e = .truncatedEntry ∨ e = .unterminated := by
  rw [dynamicArray] at h
  split at h
  · cases h
    exact Or.inl rfl
  · rw [throughNull] at h
    split at h
    · cases h
      exact Or.inr rfl
    · cases h

/-! ### The parser -/

section Parser

variable {o : UInt32 × ℕ → Option (List UInt8)} {segment : Elf32DynamicSegment}
  {bytes : List UInt8}

/-- The walk over the entries from the `i`-th one on. -/
lemma parseDynamicEntries_under {left i : ℕ} (hlen : 8 * (i + left) ≤ bytes.length)
    (hread : ∀ j, 8 * j + 8 ≤ bytes.length →
      o (UInt32.ofNat (segment.guestAddress.toNat + 8 * j), 8)
        = some ((bytes.drop (8 * j)).take 8)) :
    (parseDynamicEntries segment left (8 * i)).under o
      = throughNull ((List.range' i left).map (dynamicEntryAt bytes)) := by
  induction left generalizing i with
  | zero => rfl
  | succ left ih =>
      rw [parseDynamicEntries, readBytes, QueryProgram.under_bind, QueryProgram.under_query,
        hread i (by omega), List.range'_succ, List.map_cons, throughNull_cons]
      simp only [ok_bind]
      rw [QueryProgram.under_ite]
      have hrest := ih (i := i + 1) (by omega)
      rw [show 8 * (i + 1) = 8 * i + 8 by omega] at hrest
      refine if_congr Iff.rfl rfl ?_
      rw [QueryProgram.under_bind, hrest]
      rfl

/-- Parsing a segment whose file bytes are `bytes`. -/
lemma parseElf32Dynamic_under (hsize : segment.fileSize.toNat = bytes.length)
    (hle : segment.fileSize.toNat ≤ segment.memorySize.toNat)
    (hend : segment.guestAddress.toNat + segment.memorySize.toNat ≤ 2 ^ 32)
    (hread : ∀ j, 8 * j + 8 ≤ bytes.length →
      o (UInt32.ofNat (segment.guestAddress.toNat + 8 * j), 8)
        = some ((bytes.drop (8 * j)).take 8)) :
    (parseElf32Dynamic segment).under o = dynamicArray bytes := by
  have hrange : ¬(segment.fileSize > segment.memorySize
      ∨ segment.guestAddress.toNat + segment.memorySize.toNat > 2 ^ 32) := by
    rintro (h | h)
    · have : segment.memorySize.toNat < segment.fileSize.toNat := h
      omega
    · omega
  have hmod : segment.fileSize % 8 ≠ 0 ↔ bytes.length % 8 ≠ 0 := by
    rw [ne_eq, ← UInt32.toNat_inj, UInt32.toNat_mod, hsize]
    rfl
  rw [parseElf32Dynamic, QueryProgram.under_bind, QueryProgram.under_reject, refuse_neg hrange,
    ok_bind, QueryProgram.under_bind, QueryProgram.under_reject, dynamicArray]
  by_cases h8 : bytes.length % 8 ≠ 0
  · rw [refuse_pos (hmod.mpr h8), if_pos h8]
    rfl
  · rw [refuse_neg (fun h => h8 (hmod.mp h)), if_neg h8, ok_bind, hsize, List.range_eq_range']
    exact parseDynamicEntries_under (i := 0) (by omega) hread

end Parser

/-! ### The dynamic range of a loaded image -/

section Loaded

variable {m m' : MappedGuestMemory} {image : List UInt8} {options : Elf32LoadOptions}
  {result : Elf32LoadResult} {plan : Elf32LoadPlan} {biased : BiasedPlan}

lemma loadElf32_dynamicSegment (h : loadElf32 m image options = (.ok result, m')) :
    ∃ plan, planElf32Load m.pageSize image = .ok plan
      ∧ biasDynamicSegment result.loadBias plan = .ok result.dynamicSegment := by
  obtain ⟨plan, biased, hplan, hbiased, rfl, -⟩ := loadElf32_biased h
  simp only [biasPlan, bind_ok_iff] at hbiased
  obtain ⟨loadBias, -, entry, -, dynamicSegment, hdynamic, relroSegments, -, plannedSegments, -,
    hret⟩ := hbiased
  cases hret
  exact ⟨plan, hplan, hdynamic⟩

/-- The reported dynamic segment is that of the only `PT_DYNAMIC` header. -/
lemma loadElf32_dynamicHeader (h : loadElf32 m image options = (.ok result, m'))
    {segment : Elf32DynamicSegment} (hsegment : result.dynamicSegment = some segment) :
    ∃ header, (programHeaders image).filter (·.isDynamic) = [header]
      ∧ header.WellFormedDynamic image
      ∧ segment.guestAddress.toNat = header.virtualAddress.toNat + result.loadBias.toNat
      ∧ segment.fileSize = header.fileSize ∧ segment.memorySize = header.memorySize
      ∧ segment.guestAddress.toNat + segment.memorySize.toNat ≤ 2 ^ 32 := by
  obtain ⟨plan, hplan, hbias⟩ := loadElf32_dynamicSegment h
  have hwf := wellFormedImage_of_plan m.pageSize_dvd hplan
  rw [biasDynamicSegment] at hbias
  cases hdynamic : plan.dynamicSegment with
  | none =>
      rw [hdynamic, hsegment] at hbias
      cases hbias
  | some dynamic =>
      obtain ⟨header, hmem, hisDynamic, -, rfl⟩ := (planElf32Load_ok hplan).1.dynamic dynamic hdynamic
      rw [hdynamic, hsegment] at hbias
      simp only [refuse_bind_ok_iff, not_or, not_lt] at hbias
      obtain ⟨⟨hstart, hend⟩, hret⟩ := hbias
      cases hret
      have haddress : (UInt32.ofNat (header.dynamicSegment.virtualAddress.toNat
          + result.loadBias.toNat)).toNat
            = header.virtualAddress.toNat + result.loadBias.toNat :=
        UInt32.toNat_ofNat_of_lt' (Nat.lt_of_le_of_lt hstart (by norm_num))
      have hfilter : (programHeaders image).filter (·.isDynamic) = [header] := by
        have hin : header ∈ (programHeaders image).filter (·.isDynamic) :=
          List.mem_filter.mpr ⟨hmem, by simpa using hisDynamic⟩
        have hone := hwf.dynamics
        rcases hl : (programHeaders image).filter (·.isDynamic) with - | ⟨first, - | ⟨second, rest⟩⟩
        · rw [hl] at hin
          exact absurd hin List.not_mem_nil
        · rw [hl, List.mem_singleton] at hin
          exact hl.trans (congrArg (fun h => [h]) hin.symm)
        · rw [hl] at hone
          simp at hone
      exact ⟨header, hfilter, hwf.dynamic header hmem hisDynamic, haddress, rfl, rfl,
        by rw [haddress]; exact hend⟩

/-- After a load every byte of the file part of a dynamic range is the byte of
the file, on a readable page. -/
lemma Prepared.dynamic_bytes (h : Prepared m image options plan biased)
    (hloaded : m.Loaded image biased.plannedSegments m') {header : ProgramHeader}
    (hok : header.WellFormedDynamic image) {i : ℕ} (hi : i < header.fileSize.toNat) :
    m'.reservation (header.virtualAddress.toNat + biased.loadBias.toNat + i)
        = image.getD (header.offset.toNat + i) 0
      ∧ m'.Grants .read
          ((header.virtualAddress.toNat + biased.loadBias.toNat + i) / m'.pageSize) := by
  obtain ⟨load, hmem, hlies⟩ := hok.inside
  obtain ⟨hfile, hoffset⟩ := hlies.file (by omega)
  have hstart := hlies.start_le
  have hend := hlies.end_le
  have hsize := hok.fileSize_le
  obtain ⟨hin, hload, hne⟩ := mem_mappedHeaders.mp hmem
  have hloadOk := (planElf32Load_ok h.planned).1.loads load hin hload
  have hfileSize := hloadOk.fileSize_le
  -- the byte counted from the start of the segment
  have hbyte := h.segment_bytes hloaded hmem
    (i := header.virtualAddress.toNat - load.virtualAddress.toNat + i) (by omega)
  rw [if_pos (by omega)] at hbyte
  have hpage : (header.virtualAddress.toNat + biased.loadBias.toNat + i) / m.pageSize
      ∈ m.pages (load.planned m.pageSize biased.loadBias).range.start
          (load.planned m.pageSize biased.loadBias).range.length := by
    have hplanned := h.plannedOk hmem
    have hguest := (ProgramHeader.planned_toNat (h.fits load hmem)).1
    have h1 := hplanned.start_le
    have h2 : (load.planned m.pageSize biased.loadBias).guestAddress.toNat
      + load.memorySize.toNat ≤ _ := hplanned.memory_le
    rw [hplanned.mem_pages_iff]
    omega
  have hstate := hloaded.protect _ (by rw [h.segments]; exact List.mem_map_of_mem hmem) _ hpage
  refine ⟨?_, ?_, ?_⟩
  · convert hbyte using 2 <;> omega
  · rw [hloaded.frame.pageSize, MappedGuestMemory.Mapped, hstate]
    exact MappedGuestMemory.pageIsMapped_encode _
  · rw [hloaded.frame.pageSize, hstate,
      MappedGuestMemory.decodePermissions_encode (h.plannedOk hmem).permissions]
    exact (hasPermission_read_segment m.pageSize hloadOk.permissions).trans hlies.readable

end Loaded

/-- **Parsing the loaded dynamic segment is decoding the file**: the outcome is
that of decoding the file bytes of the image's only `PT_DYNAMIC` header, and no
range or read error occurs. -/
theorem parseElf32Dynamic_of_load {m m' : MappedGuestMemory} {image : List UInt8}
    {options : Elf32LoadOptions} {result : Elf32LoadResult} {segment : Elf32DynamicSegment}
    (h : loadElf32 m image options = (.ok result, m'))
    (hsegment : result.dynamicSegment = some segment) :
    (∃ header, (programHeaders image).filter (·.isDynamic) = [header]
        ∧ (parseElf32Dynamic segment).under (GuestMemory.reads m')
          = dynamicArray ((image.drop header.offset.toNat).take header.fileSize.toNat))
      ∧ (parseElf32Dynamic segment).under (GuestMemory.reads m') ≠ .error .invalidRange
      ∧ (parseElf32Dynamic segment).under (GuestMemory.reads m') ≠ .error .readFailed := by
  obtain ⟨header, hheader, hok, haddress, hfile, hmemory, hend⟩ :=
    loadElf32_dynamicHeader h hsegment
  obtain ⟨plan, biased, hprep, rfl, hloaded⟩ := loadElf32_ok h
  have hbias : biased.result.loadBias = biased.loadBias := rfl
  rw [hbias] at haddress
  have hbound := hok.file_le
  have hlen : ((image.drop header.offset.toNat).take header.fileSize.toNat).length
      = header.fileSize.toNat := by
    rw [List.length_take, List.length_drop]
    omega
  have hparse : (parseElf32Dynamic segment).under (GuestMemory.reads m')
      = dynamicArray ((image.drop header.offset.toNat).take header.fileSize.toNat) := by
    refine parseElf32Dynamic_under (by rw [hlen, hfile]) (by rw [hfile, hmemory]; exact hok.fileSize_le)
      hend fun j hj => ?_
    rw [hlen] at hj
    have hsize := hok.fileSize_le
    have hat : (UInt32.ofNat (segment.guestAddress.toNat + 8 * j)).toNat
        = header.virtualAddress.toNat + biased.loadBias.toNat + 8 * j := by
      have hlt : segment.guestAddress.toNat + 8 * j < 2 ^ 32 := by
        rw [hmemory] at hend
        omega
      rw [UInt32.toNat_ofNat_of_lt' hlt, haddress]
    -- eight bytes of the file part, each on a readable page
    refine MappedGuestMemory.read_eq_some.mpr ⟨?_, ?_⟩
    · rw [MappedGuestMemory.validAccess_iff, hat]
      rw [hmemory, haddress] at hend
      refine Or.inr ⟨by omega, fun x hx hlt => ?_⟩
      have hge : header.virtualAddress.toNat + biased.loadBias.toNat ≤ x := by omega
      have hgrant := (hprep.dynamic_bytes hloaded hok
        (i := x - (header.virtualAddress.toNat + biased.loadBias.toNat)) (by omega)).2
      rwa [Nat.add_sub_cancel' hge] at hgrant
    · refine List.ext_getElem ?_ fun k hk hk' => ?_
      · simp only [List.length_take, List.length_drop, window_length]
        omega
      · rw [window_length] at hk'
        have hbyte := (hprep.dynamic_bytes hloaded hok (i := 8 * j + k) (by omega)).1
        rw [List.getD_eq_getElem?_getD, List.getElem?_eq_getElem (by omega), Option.getD_some] at hbyte
        simp only [List.getElem_take, List.getElem_drop, window, List.getElem_map,
          List.getElem_range, hat, Nat.add_assoc] at hbyte ⊢
        exact hbyte.symm
  refine ⟨⟨header, hheader, hparse⟩, fun hbad => ?_, fun hbad => ?_⟩
  · rw [hparse] at hbad
    rcases dynamicArray_error hbad with h | h <;> cases h
  · rw [hparse] at hbad
    rcases dynamicArray_error hbad with h | h <;> cases h

/-- A dynamic image that needs the library `b`. -/
def needyImage : List UInt8 :=
  [0x7f, 0x45, 0x4c, 0x46, 1, 1, 1, 0, 0, 0, 0, 0, 0, 0, 0, 0,
   3, 0, 40, 0, 1, 0, 0, 0, 0, 0, 0, 0, 52, 0, 0, 0,
   0, 0, 0, 0, 0, 0, 0, 0, 52, 0, 32, 0, 2, 0, 0, 0, 0, 0, 0, 0,
   1, 0, 0, 0, 0, 0, 0, 0, 0, 0, 0, 0, 0, 0, 0, 0,
   151, 0, 0, 0, 151, 0, 0, 0, 5, 0, 0, 0, 0, 16, 0, 0,
   2, 0, 0, 0, 116, 0, 0, 0, 116, 0, 0, 0, 116, 0, 0, 0,
   32, 0, 0, 0, 32, 0, 0, 0, 4, 0, 0, 0, 4, 0, 0, 0,
   1, 0, 0, 0, 1, 0, 0, 0, 5, 0, 0, 0, 148, 0, 0, 0,
   10, 0, 0, 0, 3, 0, 0, 0, 0, 0, 0, 0, 0, 0, 0, 0,
   0, 98, 0]

theorem parseElf32Dynamic_of_load_needy : ∃ result m' segment,
    loadElf32 vacantMemory needyImage { dynamicBase := some 0x10000 } = (.ok result, m')
      ∧ result.dynamicSegment = some segment
      ∧ (parseElf32Dynamic segment).under (GuestMemory.reads m')
        = .ok [⟨1, 1⟩, ⟨5, 148⟩, ⟨10, 3⟩, ⟨0, 0⟩] := by
  have hdynamic : (loadElf32 vacantMemory needyImage { dynamicBase := some 0x10000 }).1.toOption.bind
      (·.dynamicSegment) = some ⟨0x10074, 32, 32⟩ := by decide +kernel
  rcases hload : loadElf32 vacantMemory needyImage { dynamicBase := some 0x10000 } with ⟨r, m'⟩
  rw [hload] at hdynamic
  obtain ⟨result, hresult, hsegment⟩ := Option.bind_eq_some_iff.mp hdynamic
  cases r with
  | error e => cases hresult
  | ok result' =>
      cases hresult
      obtain ⟨⟨header, hheader, hparse⟩, -⟩ := parseElf32Dynamic_of_load hload hsegment
      have hfilter : (programHeaders needyImage).filter (·.isDynamic)
          = [decodeProgramHeader needyImage 84] := by decide +kernel
      rw [hfilter] at hheader
      cases hheader
      exact ⟨_, _, _, rfl, hsegment, hparse.trans (by decide +kernel)⟩

end LibA32Android
