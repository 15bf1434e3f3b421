/-
What a load does to the memory.

* `mapPass`: after the first pass the mappings of all segments are acquired,
  readable and writable, and no byte has changed;
* `initialize_succeeds`: the second pass cannot fail then, and leaves the file
  bytes and the zero fill of every segment;
* `protectPass`: the third pass sets the permissions of each mapping;
* `loadElf32_ok`, `loadElf32_error`: what a successful load went through, and
  that a failing one leaves what the guest sees as it was.
-/
import LibA32Android.Elf.BiasedPlan

namespace LibA32Android

open Foundations

namespace MappedGuestMemory

variable {m m' m₀ m₁ : MappedGuestMemory} {image : List UInt8} {planned : PlannedSegment}
  {segments done : List PlannedSegment}

/-! ### The first pass -/

/-- After mapping `done`: their pages are acquired and read-write, and no byte
has changed. -/
structure MapPass (m₀ : MappedGuestMemory) (done : List PlannedSegment)
    (s : List MappedRange × MappedGuestMemory) : Prop where
  ranges : s.1 = done.map (·.range)
  acquired : Acquired m₀ s.1 s.2
  frame : UnchangedOff (m₀.rangePages s.1) m₀ s.2
  writable : ∀ page ∈ m₀.rangePages s.1, s.2.pageState page = encodePageState (.read ||| .write)
  bytes : s.2.reservation = m₀.reservation

lemma mapSegment_eq_true {s s' : List MappedRange × MappedGuestMemory}
    (h : mapSegment s planned = (true, s')) :
    s.2.map planned.range.start planned.range.length (.read ||| .write) = (true, s'.2)
      ∧ s'.1 = s.1 ++ [planned.range] := by
  rw [mapSegment] at h
  split at h
  · cases h
  · rename_i m hmap
    cases h
    exact ⟨hmap, rfl⟩

lemma mapSegment_eq_false {s s' : List MappedRange × MappedGuestMemory}
    (h : mapSegment s planned = (false, s')) : s'.1 = s.1 ∧ UnchangedOff ∅ s.2 s'.2 := by
  rw [mapSegment] at h
  split at h
  · rename_i m hmap
    cases h
    exact ⟨rfl, map_failed hmap⟩
  · cases h

lemma MapPass.step {s s' : List MappedRange × MappedGuestMemory} (h : MapPass m₀ done s)
    (hok : PlannedOk m₀.pageSize image planned) (hstep : mapSegment s planned = (true, s')) :
    MapPass m₀ (done ++ [planned]) s' := by
  obtain ⟨hmap, hranges⟩ := mapSegment_eq_true hstep
  obtain ⟨-, -, -, hframe, hstate, hbytes⟩ := map_ok hmap
  rw [h.frame.pages] at hframe hstate
  have hsplit : m₀.rangePages s'.1
      = m₀.rangePages s.1 ∪ m₀.pages planned.range.start planned.range.length := by
    rw [hranges, rangePages_append, rangePages_singleton]
  refine ⟨by rw [hranges, h.ranges, List.map_append]; rfl,
    hranges ▸ h.acquired.map hok.isPageRange hmap, ?_, ?_, hbytes.trans h.bytes⟩
  · rw [hsplit]
    exact (h.frame.mono Set.subset_union_left).trans (hframe.mono Set.subset_union_right)
  · rw [hsplit]
    intro page hp
    by_cases hnew : page ∈ m₀.pages planned.range.start planned.range.length
    · exact hstate page hnew
    · rw [hframe.pageState page hnew]
      exact h.writable page (hp.resolve_right hnew)

/-- **The first pass**, successful or not. -/
lemma mapPass (hall : ∀ planned ∈ segments, PlannedOk m₀.pageSize image planned) :
    (∀ s, stepAll mapSegment segments ([], m₀) = (true, s) → MapPass m₀ segments s)
      ∧ (∀ s, stepAll mapSegment segments ([], m₀) = (false, s) → Acquired m₀ s.1 s.2) := by
  refine stepAll_induction (MapPass m₀) (fun s => Acquired m₀ s.1 s.2) ?_ ?_ ?_
  · exact fun done planned rest s s' hl h hstep => h.step (hall planned (by simp [hl])) hstep
  · intro done planned rest s s' _ h hstep
    obtain ⟨hranges, hframe⟩ := mapSegment_eq_false hstep
    rw [hranges]
    exact h.acquired.keep_of_unchanged hframe
  · exact ⟨rfl, .nil m₀, .refl _ _, fun page hp => by simp [mem_rangePages] at hp, rfl⟩

/-- The mapping of the next segment is free. -/
lemma MapPass.next_free {s : List MappedRange × MappedGuestMemory} {rest : List PlannedSegment}
    (h : MapPass m₀ done s) (hl : segments = done ++ planned :: rest)
    (hfree : ∀ page ∈ m₀.rangePages (segments.map (·.range)), ¬m₀.Mapped page)
    (hdisjoint : (segments.map (·.range)).Pairwise fun r r' =>
      Disjoint (m₀.pages r.start r.length) (m₀.pages r'.start r'.length)) :
    ∀ page ∈ s.2.pages planned.mappingStart planned.mappingSize, ¬s.2.Mapped page := by
  intro page hp
  rw [h.frame.pages] at hp
  have hnew : page ∉ m₀.rangePages s.1 := by
    rintro ⟨r, hr, hp'⟩
    rw [h.ranges] at hr
    rw [hl, List.map_append, List.map_cons, List.pairwise_append] at hdisjoint
    exact Set.disjoint_left.mp (hdisjoint.2.2 r hr planned.range (by simp)) hp' hp
  rw [h.frame.mapped_iff hnew]
  exact hfree page ⟨planned.range, by simp [hl], hp⟩

/-- The first pass succeeds on disjoint free mappings. -/
lemma mapPass_succeeds (hall : ∀ planned ∈ segments, PlannedOk m₀.pageSize image planned)
    (hfree : ∀ page ∈ m₀.rangePages (segments.map (·.range)), ¬m₀.Mapped page)
    (hdisjoint : (segments.map (·.range)).Pairwise fun r r' =>
      Disjoint (m₀.pages r.start r.length) (m₀.pages r'.start r'.length))
    (hhost : ∀ n, m₀.host n .mapMprotect = true) :
    ∃ s, stepAll mapSegment segments ([], m₀) = (true, s) ∧ MapPass m₀ segments s := by
  refine stepAll_succeeds (MapPass m₀) ?_
    ⟨rfl, .nil m₀, .refl _ _, fun page hp => by simp [mem_rangePages] at hp, rfl⟩
  intro done planned rest s hl h
  have hok := hall planned (by simp [hl])
  have hunmapped := h.next_free hl hfree hdisjoint
  have hperm : validPermissions (.read ||| .write) = true := by decide
  obtain ⟨m', hmap⟩ := map_succeeds (h.frame.isPageRange hok.isPageRange) hperm hunmapped
    (by rwa [h.frame.host])
  have hstep : mapSegment s planned = (true, s.1 ++ [planned.range], m') := by
    change s.2.map planned.mappingStart planned.mappingSize _ = _ at hmap
    simp only [mapSegment, hmap]
  exact ⟨_, hstep, h.step hok hstep⟩

/-! ### The second pass -/

/-- The zero fill writes zeros over the whole rest of the segment. -/
lemma zeroFill_granted (rounds start remaining : ℕ) (m : MappedGuestMemory)
    (hrounds : remaining ≤ rounds) (hend : start + remaining ≤ 2 ^ 32)
    (hgrant : ∀ x, start ≤ x → x < start + remaining → m.Grants .write (x / m.pageSize)) :
    zeroFill rounds start remaining m
      = (true, m.withBytes (overwrite m.reservation start (List.replicate remaining 0))) := by
  induction rounds generalizing start remaining m with
  | zero =>
      cases Nat.le_zero.mp hrounds
      simp [zeroFill]
  | succ rounds ih =>
      rw [zeroFill]
      by_cases h0 : remaining = 0
      · simp [h0]
      · rw [if_pos h0]
        have hchunk : 0 < min remaining 4096 ∧ min remaining 4096 ≤ remaining := by omega
        generalize min remaining 4096 = chunk at hchunk
        have hlt : start < 2 ^ 32 := by omega
        have hwrite : GuestMemory.write m (UInt32.ofNat start) (List.replicate chunk 0)
            = (true, m.withBytes (overwrite m.reservation start (List.replicate chunk 0))) :=
          write_granted (UInt32.toNat_ofNat_of_lt' hlt) (by simp; omega)
            fun x h1 h2 => hgrant x h1 (by simp at h2; omega)
        simp only [hwrite]
        -- the pages are as before the write, so the rest of the fill is granted too
        have hrest := ih (start + chunk) (remaining - chunk)
          (m.withBytes (overwrite m.reservation start (List.replicate chunk 0))) (by omega)
          (by omega) fun x h1 h2 => hgrant x (by omega) (by omega)
        have hparts : List.replicate remaining (0 : UInt8)
            = List.replicate chunk 0 ++ List.replicate (remaining - chunk) 0 := by
          rw [List.replicate_append_replicate, show chunk + (remaining - chunk) = remaining by omega]
        rw [hrest, hparts, overwrite_append, List.length_replicate, withBytes_withBytes,
          withBytes_reservation]

/-- The bytes that the second pass puts into a segment: the file bytes, then
zeros. -/
def segmentBytes (image : List UInt8) (planned : PlannedSegment) : List UInt8 :=
  (image.drop planned.raw.offset.toNat).take planned.raw.fileSize.toNat
    ++ List.replicate (planned.raw.memorySize.toNat - planned.raw.fileSize.toNat) 0

/-- Where it puts them. -/
def segmentWrite (image : List UInt8) (planned : PlannedSegment) : ℕ × List UInt8 :=
  (planned.guestAddress.toNat, segmentBytes image planned)

lemma fileBytes_length (hok : PlannedOk m.pageSize image planned) :
    ((image.drop planned.raw.offset.toNat).take planned.raw.fileSize.toNat).length
      = planned.raw.fileSize.toNat := by
  have := hok.image_le
  rw [List.length_take, List.length_drop]
  omega

lemma segmentBytes_length (hok : PlannedOk m.pageSize image planned) :
    (segmentBytes image planned).length = planned.raw.memorySize.toNat := by
  have := hok.file_le
  rw [segmentBytes, List.length_append, fileBytes_length hok, List.length_replicate]
  omega

lemma writeFileBytes_granted (hok : PlannedOk m.pageSize image planned)
    (hgrant : ∀ x, planned.mappingStart.toNat ≤ x → x < planned.mappingEnd →
      m.Grants .write (x / m.pageSize)) :
    m.writeFileBytes image planned = (true, m.withBytes (overwrite m.reservation
      planned.guestAddress.toNat
      ((image.drop planned.raw.offset.toNat).take planned.raw.fileSize.toNat))) := by
  have hlen := fileBytes_length hok
  obtain ⟨-, -, -, hend, hstart, hmemory, hfile, -, -⟩ := hok
  rw [writeFileBytes]
  split
  · exact write_granted rfl (by omega) fun x h1 h2 => hgrant x (by omega) (by omega)
  · rename_i h0
    rw [not_not] at h0
    simp [h0]

/-- The second pass on one segment. -/
lemma initializeSegment_granted (hok : PlannedOk m.pageSize image planned)
    (hgrant : ∀ x, planned.mappingStart.toNat ≤ x → x < planned.mappingEnd →
      m.Grants .write (x / m.pageSize)) :
    initializeSegment image m planned = (true, m.withBytes
      (overwrite m.reservation planned.guestAddress.toNat (segmentBytes image planned))) := by
  have hlen := fileBytes_length hok
  have hfill := zeroFill_granted (planned.raw.memorySize.toNat - planned.raw.fileSize.toNat)
    (planned.guestAddress.toNat + planned.raw.fileSize.toNat)
    (planned.raw.memorySize.toNat - planned.raw.fileSize.toNat)
    (m.withBytes (overwrite m.reservation planned.guestAddress.toNat
      ((image.drop planned.raw.offset.toNat).take planned.raw.fileSize.toNat)))
  simp only [initializeSegment, writeFileBytes_granted hok hgrant]
  obtain ⟨-, -, -, hend, hstart, hmemory, hfile, -, -⟩ := hok
  rw [hfill le_rfl (by omega) fun x h1 h2 => hgrant x (by omega) (by omega), segmentBytes,
    overwrite_append, hlen, withBytes_withBytes, withBytes_reservation]

/-- **The second pass cannot fail** once the mappings are writable; it puts the
bytes of each segment and nothing else. -/
lemma initialize_succeeds (hall : ∀ planned ∈ segments, PlannedOk m.pageSize image planned)
    (hgrant : ∀ planned ∈ segments, ∀ x, planned.mappingStart.toNat ≤ x →
      x < planned.mappingEnd → m.Grants .write (x / m.pageSize)) :
    stepAll (initializeSegment image) segments m = (true, m.withBytes
      (overwriteAll m.reservation (segments.map (segmentWrite image)))) := by
  induction segments generalizing m with
  | nil => rfl
  | cons planned segments ih =>
      rw [stepAll, initializeSegment_granted (hall planned (by simp)) (hgrant planned (by simp))]
      exact ih (fun p hp => hall p (List.mem_cons_of_mem _ hp))
        (fun p hp => hgrant p (List.mem_cons_of_mem _ hp))

/-! ### The third pass -/

/-- After protecting `done`: the transaction still owns all mappings, each page
of `done` has the permissions of its segment, and no byte has changed. -/
structure ProtectPass (m₀ : MappedGuestMemory) (segments : List PlannedSegment)
    (m₁ : MappedGuestMemory) (done : List PlannedSegment) (m : MappedGuestMemory) : Prop where
  acquired : Acquired m₀ (segments.map (·.range)) m
  frame : UnchangedOff (m₀.rangePages (segments.map (·.range))) m₁ m
  protect : ∀ planned ∈ done, ∀ page ∈ m₀.pages planned.range.start planned.range.length,
    m.pageState page = encodePageState planned.raw.permissions
  bytes : m.reservation = m₁.reservation

lemma ProtectPass.step {rest : List PlannedSegment} (h : ProtectPass m₀ segments m₁ done m)
    (hl : segments = done ++ planned :: rest)
    (hstep : protectSegment m planned = (true, m')) :
    ProtectPass m₀ segments m₁ (done ++ [planned]) m' := by
  obtain ⟨-, -, -, hframe, hstate, hbytes⟩ := protect_ok hstep
  rw [h.acquired.frame.pages] at hframe hstate
  change UnchangedOff (m₀.pages planned.range.start planned.range.length) m m' at hframe
  have hsub : m₀.pages planned.range.start planned.range.length
      ⊆ m₀.rangePages (segments.map (·.range)) :=
    fun page hp => ⟨planned.range, by simp [hl], hp⟩
  have hframe' := hframe.mono hsub
  have hapart : ∀ q ∈ done, Disjoint (m₀.pages q.range.start q.range.length)
      (m₀.pages planned.range.start planned.range.length) := by
    intro q hq
    have hd := h.acquired.disjoint
    rw [hl, List.map_append, List.map_cons, List.pairwise_append] at hd
    exact hd.2.2 q.range (List.mem_map_of_mem hq) planned.range (by simp)
  refine ⟨h.acquired.keep hframe' fun page hp => ?_, h.frame.trans hframe', fun q hq page hp => ?_,
    hbytes.trans h.bytes⟩
  · by_cases hp' : page ∈ m₀.pages planned.range.start planned.range.length
    · rw [Mapped, hstate page hp']
      exact pageIsMapped_encode _
    · rw [hframe.mapped_iff hp']
      exact h.acquired.mapped page hp
  · rcases List.mem_append.mp hq with hq | hq
    · rw [hframe.pageState page (Set.disjoint_left.mp (hapart q hq) hp)]
      exact h.protect q hq page hp
    · cases List.mem_singleton.mp hq
      exact hstate page hp

/-- **The third pass**, successful or not. -/
lemma protectPass (h : Acquired m₀ (segments.map (·.range)) m₁) :
    (∀ m, stepAll protectSegment segments m₁ = (true, m) →
        ProtectPass m₀ segments m₁ segments m)
      ∧ (∀ m, stepAll protectSegment segments m₁ = (false, m) →
        Acquired m₀ (segments.map (·.range)) m) := by
  refine stepAll_induction (ProtectPass m₀ segments m₁) _ ?_ ?_ ?_
  · exact fun done planned rest m m' hl h hstep => h.step hl hstep
  · exact fun done planned rest m m' _ h hstep =>
      h.acquired.keep_of_unchanged (protect_failed hstep)
  · exact ⟨h, .refl _ _, fun _ hq => absurd hq List.not_mem_nil, rfl⟩

/-- The mapping of the next segment is mapped. -/
lemma ProtectPass.next_mapped {rest : List PlannedSegment} (h : ProtectPass m₀ segments m₁ done m)
    (hl : segments = done ++ planned :: rest) :
    ∀ page ∈ m.pages planned.mappingStart planned.mappingSize, m.Mapped page := by
  intro page hp
  rw [h.acquired.frame.pages] at hp
  exact h.acquired.mapped page ⟨planned.range, by simp [hl], hp⟩

/-- The third pass succeeds on acquired mappings. -/
lemma protectPass_succeeds (h : Acquired m₀ (segments.map (·.range)) m₁)
    (hall : ∀ planned ∈ segments, PlannedOk m₀.pageSize image planned)
    (hhost : ∀ n, m₀.host n .protectMprotect = true) :
    ∃ m, stepAll protectSegment segments m₁ = (true, m) := by
  have hstep : ∀ done planned rest m, segments = done ++ planned :: rest →
      ProtectPass m₀ segments m₁ done m →
      ∃ m', protectSegment m planned = (true, m')
        ∧ ProtectPass m₀ segments m₁ (done ++ [planned]) m' := by
    intro done planned rest m hl hpass
    have hok := hall planned (by simp [hl])
    have hframe := hpass.acquired.frame
    obtain ⟨m', hprotect⟩ := protect_succeeds (hframe.isPageRange.mpr hok.isPageRange)
      hok.permissions (hpass.next_mapped hl) (by rwa [hframe.host])
    exact ⟨m', hprotect, hpass.step hl hprotect⟩
  obtain ⟨m, hrun, -⟩ := stepAll_succeeds (ProtectPass m₀ segments m₁) hstep
    ⟨h, .refl _ _, fun _ hq => absurd hq List.not_mem_nil, rfl⟩
  exact ⟨m, hrun⟩

/-! ### The three passes -/

/-- What the three passes leave. -/
structure Loaded (m₀ : MappedGuestMemory) (image : List UInt8) (segments : List PlannedSegment)
    (m : MappedGuestMemory) : Prop where
  acquired : Acquired m₀ (segments.map (·.range)) m
  frame : UnchangedOff (m₀.rangePages (segments.map (·.range))) m₀ m
  protect : ∀ planned ∈ segments, ∀ page ∈ m₀.pages planned.range.start planned.range.length,
    m.pageState page = encodePageState planned.raw.permissions
  bytes : m.reservation = overwriteAll m₀.reservation (segments.map (segmentWrite image))

/-- The memory between the second and the third pass. -/
def initialized (image : List UInt8) (segments : List PlannedSegment) (m : MappedGuestMemory) :
    MappedGuestMemory :=
  m.withBytes (overwriteAll m.reservation (segments.map (segmentWrite image)))

lemma MapPass.grants {s : List MappedRange × MappedGuestMemory} (h : MapPass m₀ segments s)
    (hall : ∀ planned ∈ segments, PlannedOk m₀.pageSize image planned) :
    ∀ planned ∈ segments, ∀ x, planned.mappingStart.toNat ≤ x → x < planned.mappingEnd →
      s.2.Grants .write (x / s.2.pageSize) := by
  intro planned hmem x h1 h2
  have hp : x / m₀.pageSize ∈ m₀.rangePages s.1 :=
    ⟨planned.range, by simpa [h.ranges] using ⟨planned, hmem, rfl⟩,
      (hall planned hmem).mem_pages_iff.mpr ⟨h1, h2⟩⟩
  rw [h.frame.pageSize, Grants, Mapped, h.writable _ hp]
  decide

/-- Writing the bytes of the segments touches no page outside their mappings. -/
lemma initialized_unchangedOff (hall : ∀ planned ∈ segments, PlannedOk m.pageSize image planned) :
    UnchangedOff (m.rangePages (segments.map (·.range))) m (initialized image segments m) := by
  refine ⟨rfl, rfl, fun _ _ => rfl, fun x hx => ?_⟩
  refine overwriteAll_of_outside fun w hw => ?_
  obtain ⟨planned, hmem, rfl⟩ := List.mem_map.mp hw
  have hok := hall planned hmem
  have hout : ¬(planned.mappingStart.toNat ≤ x ∧ x < planned.mappingEnd) := fun hin =>
    hx ⟨planned.range, List.mem_map_of_mem hmem, hok.mem_pages_iff.mpr hin⟩
  have hlen := segmentBytes_length hok
  obtain ⟨-, -, -, -, hstart, hmemory, -, -, -⟩ := hok
  show x < planned.guestAddress.toNat
    ∨ planned.guestAddress.toNat + (segmentBytes image planned).length ≤ x
  omega

/-- The memory the third pass starts from. -/
lemma MapPass.initialized {s : List MappedRange × MappedGuestMemory} (h : MapPass m₀ segments s)
    (hall : ∀ planned ∈ segments, PlannedOk m₀.pageSize image planned) :
    stepAll (initializeSegment image) segments s.2
        = (true, MappedGuestMemory.initialized image segments s.2)
      ∧ Acquired m₀ (segments.map (·.range)) (MappedGuestMemory.initialized image segments s.2)
      ∧ UnchangedOff (m₀.rangePages (segments.map (·.range))) m₀
          (MappedGuestMemory.initialized image segments s.2) := by
  have hall' : ∀ planned ∈ segments, PlannedOk s.2.pageSize image planned := by
    rwa [h.frame.pageSize]
  have hframe := initialized_unchangedOff hall'
  have hpages : s.2.rangePages (segments.map (·.range))
      = m₀.rangePages (segments.map (·.range)) := by
    simp only [rangePages, h.frame.pages]
  rw [hpages] at hframe
  have hacquired := h.acquired
  have hframe₀ := h.frame
  rw [h.ranges] at hacquired hframe₀
  exact ⟨initialize_succeeds hall' (h.grants hall),
    hacquired.keep hframe hacquired.mapped, hframe₀.trans hframe⟩

/-- Either the passes leave a loaded image, or they roll back a transaction. -/
lemma loadSegments_cases (hall : ∀ planned ∈ segments, PlannedOk m₀.pageSize image planned) :
    (∃ m, m₀.loadSegments image segments = (.ok (), m) ∧ Loaded m₀ image segments m)
      ∨ ∃ e ranges m, m₀.loadSegments image segments = (.error e, (unmapAll ranges m).2)
          ∧ Acquired m₀ ranges m := by
  obtain ⟨hmapOk, hmapFail⟩ := mapPass hall
  rw [loadSegments]
  cases hmap : stepAll mapSegment segments ([], m₀) with
  | mk ok s =>
      cases ok with
      | false => exact Or.inr ⟨_, s.1, s.2, rfl, hmapFail s hmap⟩
      | true =>
          have hpass := hmapOk s hmap
          obtain ⟨hinit, hacquired, hframe⟩ := hpass.initialized hall
          obtain ⟨hprotOk, hprotFail⟩ := protectPass hacquired
          simp only [hinit]
          cases hprot : stepAll protectSegment segments (initialized image segments s.2) with
          | mk ok m =>
              cases ok with
              | false =>
                  refine Or.inr ⟨_, s.1, m, rfl, ?_⟩
                  rw [hpass.ranges]
                  exact hprotFail m hprot
              | true =>
                  have hlast := hprotOk m hprot
                  refine Or.inl ⟨m, rfl, hlast.acquired, hframe.trans hlast.frame, hlast.protect, ?_⟩
                  rw [hlast.bytes, initialized, withBytes_reservation, hpass.bytes]

/-- The passes succeed on disjoint free mappings when the host calls do. -/
lemma loadSegments_succeeds (hall : ∀ planned ∈ segments, PlannedOk m₀.pageSize image planned)
    (hfree : ∀ page ∈ m₀.rangePages (segments.map (·.range)), ¬m₀.Mapped page)
    (hdisjoint : (segments.map (·.range)).Pairwise fun r r' =>
      Disjoint (m₀.pages r.start r.length) (m₀.pages r'.start r'.length))
    (hhost : ∀ n call, m₀.host n call = true) :
    ∃ m, m₀.loadSegments image segments = (.ok (), m) := by
  obtain ⟨s, hmap, hpass⟩ := mapPass_succeeds hall hfree hdisjoint fun n => hhost n _
  obtain ⟨hinit, hacquired, -⟩ := hpass.initialized hall
  obtain ⟨m, hprotect⟩ := protectPass_succeeds hacquired hall fun n => hhost n _
  refine ⟨m, ?_⟩
  rw [loadSegments, hmap]
  simp only [hinit, hprotect]

end MappedGuestMemory

/-! ### The loader -/

section Load

variable {m m' : MappedGuestMemory} {image : List UInt8} {options : Elf32LoadOptions}
  {result : Elf32LoadResult} {e : Elf32LoadError}

/-- A successful load planned and biased the image and went through all passes. -/
lemma loadElf32_biased (h : loadElf32 m image options = (.ok result, m')) :
    ∃ plan biased, planElf32Load m.pageSize image = .ok plan
      ∧ biasPlan m.pageSize plan options = .ok biased ∧ result = biased.result
      ∧ m.Loaded image biased.plannedSegments m' := by
  rw [loadElf32] at h
  cases hprepare : prepareElf32Load m image options with
  | error e =>
      rw [hprepare] at h
      cases h
  | ok biased =>
      rw [hprepare] at h
      simp only [prepareElf32Load, bind_ok_iff] at hprepare
      obtain ⟨plan, hplan, biased', hbiased, -, -, hret⟩ := hprepare
      cases hret
      rcases MappedGuestMemory.loadSegments_cases (Prepared.of_biasPlan hplan hbiased).allOk with
        ⟨m₁, hrun, hloaded⟩ | ⟨e, ranges, m₁, hrun, hacquired⟩
      · simp only [hrun] at h
        cases h
        exact ⟨plan, biased, hplan, hbiased, rfl, hloaded⟩
      · simp only [hrun] at h
        cases h

/-- What the passes of a successful load started from and left. -/
lemma loadElf32_ok (h : loadElf32 m image options = (.ok result, m')) :
    ∃ plan biased, Prepared m image options plan biased ∧ result = biased.result
      ∧ m.Loaded image biased.plannedSegments m' := by
  obtain ⟨plan, biased, hplan, hbiased, hresult, hloaded⟩ := loadElf32_biased h
  exact ⟨plan, biased, .of_biasPlan hplan hbiased, hresult, hloaded⟩

/-- **A failing load is invisible**: with working unmap calls the guest sees
the memory as it was. -/
theorem loadElf32_error (h : loadElf32 m image options = (.error e, m'))
    (hhost : m.UnmapCallsSucceed) : m.SameView m' := by
  rw [loadElf32] at h
  cases hprep : prepareElf32Load m image options with
  | error e =>
      rw [hprep] at h
      cases h
      exact .refl _ _
  | ok biased =>
      obtain ⟨plan, hplan⟩ := prepareElf32Load_ok hprep
      rw [hprep] at h
      rcases MappedGuestMemory.loadSegments_cases hplan.allOk with
        ⟨m₁, hrun, hloaded⟩ | ⟨e, ranges, m₁, hrun, hacquired⟩
      · simp only [hrun] at h
        cases h
      · simp only [hrun] at h
        cases h
        exact (hacquired.unmapAll hhost).2

end Load

end LibA32Android
