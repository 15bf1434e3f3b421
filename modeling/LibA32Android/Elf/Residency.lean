/-
Loaded objects stay in memory.

An object of a link map keeps its load result; what is in memory at these addresses is the
business of everything that runs later.

* `Resident`: the image of an object was loaded, and what happened since preserves it;
* `SegmentResident`, `Resident.segment`: what that means for a segment;
* `resident_rule`, `LinkMapResident.processed`: the loads of a run stay resident while it loads
  more;
* `LinkMapResident`: all objects are, on pages of their own, and
  `appendElf32LinkMapRoot_resident`: an append keeps that, however it ends.
-/
import LibA32Android.Elf.CallPreservation
import LibA32Android.Elf.GraphShape

namespace LibA32Android

open Foundations MappedGuestMemory

variable {m m' m₀ : MappedGuestMemory} {object object' : Elf32LoadedDependencyObject}

/-! ### Resident objects -/

/-- The image of the object was loaded, and what happened since preserves it. -/
def Elf32LoadedDependencyObject.Resident (m : MappedGuestMemory)
    (object : Elf32LoadedDependencyObject) : Prop :=
  ∃ m₁ m₂ options, loadElf32 m₁ object.image options = (.ok object.load, m₂) ∧ m₂.Preserves m

/-- A segment of a loaded object is in memory: its pages are mapped with no more than the
permissions of its flags, `Read` is still there if it is among these, and without `Write` among
them the segment has the bytes of the image. -/
structure SegmentResident (m : MappedGuestMemory) (object : Elf32LoadedDependencyObject)
    (header : ProgramHeader) : Prop where
  mapped : ∀ x ∈ header.footprint m.pageSize object.load.loadBias.toNat, m.Mapped (x / m.pageSize)
  permissions : ∀ x ∈ header.footprint m.pageSize object.load.loadBias.toNat, ∀ required,
    m.Grants required (x / m.pageSize) →
    ∃ permissions, decodeSegmentPermissions header.flags = some permissions
      ∧ hasPermission permissions required = true
  readable : ∀ permissions, decodeSegmentPermissions header.flags = some permissions →
    hasPermission permissions .read = true →
    ∀ x ∈ header.footprint m.pageSize object.load.loadBias.toNat, m.Grants .read (x / m.pageSize)
  bytes : ∀ permissions, decodeSegmentPermissions header.flags = some permissions →
    hasPermission permissions .write = false → ∀ i < header.memorySize.toNat,
      m.reservation (header.virtualAddress.toNat + object.load.loadBias.toNat + i)
        = if i < header.fileSize.toNat then object.image.getD (header.offset.toNat + i) 0 else 0

namespace Elf32LoadedDependencyObject.Resident

lemma mono (h : object.Resident m) (hm : m.Preserves m') : object.Resident m' := by
  obtain ⟨m₁, m₂, options, hload, hpreserves⟩ := h
  exact ⟨m₁, m₂, options, hload, hpreserves.trans hm⟩

/-- What is read of the object are its image and its load. -/
lemma congr (h : object.Resident m) (himage : object'.image = object.image)
    (hload : object'.load = object.load) : object'.Resident m := by
  rw [Resident, himage, hload]
  exact h

/-- A segment byte lies in the footprint of its segment. -/
lemma mem_footprint {header : ProgramHeader} (pageSize bias : ℕ) {i : ℕ}
    (hi : i < header.memorySize.toNat) :
    header.virtualAddress.toNat + bias + i ∈ header.footprint pageSize bias :=
  ⟨_, by omega, by omega, rfl⟩

/-- **The segments of a resident object are in memory.** -/
lemma segment (h : object.Resident m) {header : ProgramHeader}
    (hmem : header ∈ mappedHeaders object.image) : SegmentResident m object header := by
  obtain ⟨m₁, m₂, options, hload, hpreserves⟩ := h
  obtain ⟨plan, biased, hprep, hresult, hloaded⟩ := loadElf32_ok hload
  have hbias : object.load.loadBias = biased.loadBias := by rw [hresult]; rfl
  have hsize : m.pageSize = m₁.pageSize := hpreserves.pageSize.trans hloaded.frame.pageSize
  have hplanned : header.planned m₁.pageSize biased.loadBias ∈ biased.plannedSegments := by
    rw [hprep.segments]
    exact List.mem_map_of_mem hmem
  -- the permissions that the load has left on the pages of the segment
  have hleft : ∀ x ∈ header.footprint m₁.pageSize biased.loadBias.toNat,
      m₂.mappedPermissions (x / m₁.pageSize)
        = some (header.planned m₁.pageSize biased.loadBias).raw.permissions := fun x hx =>
    mappedPermissions_encode (hprep.plannedOk hmem).permissions
      (hloaded.protect _ hplanned _ ((hprep.mem_footprint_iff_page hmem).mp hx))
  obtain ⟨hprog, hisload, -⟩ := mem_mappedHeaders.mp hmem
  obtain ⟨permissions, hflags⟩ := Option.isSome_iff_exists.mp
    ((planElf32Load_ok hprep.planned).1.loads header hprog hisload).permissions
  have hraw : (header.planned m₁.pageSize biased.loadBias).raw.permissions = permissions := by
    change (decodeSegmentPermissions header.flags).getD .none = permissions
    rw [hflags, Option.getD_some]
  rw [hraw] at hleft
  have hmapped : ∀ x ∈ header.footprint m₁.pageSize biased.loadBias.toNat,
      m₂.Mapped (x / m₁.pageSize) := fun x hx => by
    rw [mapped_iff_isSome, hleft x hx]
    rfl
  have hgrants : ∀ x ∈ header.footprint m₁.pageSize biased.loadBias.toNat, ∀ required,
      m₂.Grants required (x / m₁.pageSize) → hasPermission permissions required = true := by
    intro x hx required hgranted
    obtain ⟨found, hfound, hrequired⟩ := grants_iff.mp hgranted
    rw [hleft x hx] at hfound
    cases hfound
    exact hrequired
  refine ⟨?_, ?_, ?_, ?_⟩
  · rw [hbias, hsize]
    exact fun x hx => hpreserves.mapped _ (hmapped x hx)
  · rw [hbias, hsize]
    exact fun x hx required hgranted => ⟨permissions, hflags,
      hgrants x hx required (hpreserves.narrows _ required (hmapped x hx) hgranted)⟩
  · intro permissions' hflags' hread
    rw [hflags] at hflags'
    cases hflags'
    rw [hbias, hsize]
    exact fun x hx => hpreserves.readable _ (grants_iff.mpr ⟨permissions, hleft x hx, hread⟩)
  · intro permissions' hflags' hwrite i hi
    rw [hflags] at hflags'
    cases hflags'
    have hx := mem_footprint m₁.pageSize biased.loadBias.toNat hi
    rw [hbias, hpreserves.bytes _ ?_ ?_, hprep.segment_bytes hloaded hmem hi]
    · rw [hloaded.frame.pageSize]
      exact hmapped _ hx
    · rw [hloaded.frame.pageSize]
      exact fun hgranted => absurd (hgrants _ hx .write hgranted) (by simp [hwrite])

/-- The pages of a resident object are mapped. -/
lemma rangePages_mapped (h : object.Resident m) :
    ∀ page ∈ m.rangePages object.load.ranges, m.Mapped page := by
  obtain ⟨m₁, m₂, options, hload, hpreserves⟩ := h
  have hacquired := loadElf32_acquired hload
  intro page hp
  rw [rangePages_congr (hpreserves.pageSize.trans hacquired.frame.pageSize)] at hp
  exact hpreserves.mapped page (hacquired.mapped page hp)

/-- They are the pages of its segments. -/
lemma page_of_footprint (h : object.Resident m) {header : ProgramHeader}
    (hmem : header ∈ mappedHeaders object.image) {x : ℕ}
    (hx : x ∈ header.footprint m.pageSize object.load.loadBias.toNat) :
    x / m.pageSize ∈ m.rangePages object.load.ranges := by
  obtain ⟨m₁, m₂, options, hload, hpreserves⟩ := h
  obtain ⟨plan, biased, hprep, hresult, hloaded⟩ := loadElf32_ok hload
  have hsize : m.pageSize = m₁.pageSize := hpreserves.pageSize.trans hloaded.frame.pageSize
  have hranges : object.load.ranges = biased.plannedSegments.map (·.range) := by
    rw [hresult, Elf32LoadResult.ranges, BiasedPlan.result, List.map_map]
    rfl
  have hbias : object.load.loadBias = biased.loadBias := by rw [hresult]; rfl
  rw [hsize, hbias] at hx
  rw [rangePages_congr hsize, hranges, hsize]
  exact hprep.mem_rangePages_iff.mpr ⟨header, hmem, hx⟩

end Elf32LoadedDependencyObject.Resident

/-- A successful load has mapped a segment. -/
lemma loadElf32_segments_ne {image : List UInt8} {options : Elf32LoadOptions}
    {load : Elf32LoadResult} (h : loadElf32 m image options = (.ok load, m')) :
    load.segments ≠ [] := by
  obtain ⟨plan, biased, hprep, rfl, -⟩ := loadElf32_ok h
  obtain ⟨hc, hmin, -⟩ := planElf32Load_ok hprep.planned
  obtain ⟨low, hlow, hmapped, -⟩ := hc.minimum_attained.resolve_left hmin
  have hmem : low ∈ mappedHeaders image := mem_mappedHeaders.mpr ⟨hlow, hmapped⟩
  have hne : biased.plannedSegments ≠ [] := by
    rw [hprep.segments]
    exact List.ne_nil_of_mem (List.mem_map_of_mem hmem)
  exact fun hnil => hne (List.map_eq_nil_iff.mp hnil)

/-! ### Runs -/

/-- The objects that have been loaded so far are resident. -/
def ResidentSoFar (m : MappedGuestMemory) (objects : List Elf32LoadedDependencyObject) : Prop :=
  ∀ object ∈ objects, object.load.segments ≠ [] → object.Resident m

namespace ResidentSoFar

variable {objects : List Elf32LoadedDependencyObject} {index : ℕ}

/-- An object gets anything but another image or load. -/
lemma set (h : ResidentSoFar m objects) (himage : object.image = (objects.getD index default).image)
    (hload : object.load = (objects.getD index default).load) :
    ResidentSoFar m (objects.set index object) := by
  intro object' hobject' hne
  rcases List.mem_or_eq_of_mem_set hobject' with hmem | rfl
  · exact h object' hmem hne
  · by_cases hlt : index < objects.length
    · have hget : objects.getD index default = objects.get ⟨index, hlt⟩ := by
        rw [List.getD_eq_getElem?_getD, List.getElem?_eq_getElem hlt, Option.getD_some]
        rfl
      refine (h _ (hget ▸ List.get_mem objects ⟨index, hlt⟩) ?_).congr himage hload
      rwa [← hload]
    · -- there is no object, so nothing was loaded for it
      have hnone : objects.getD index default = default := by
        rw [List.getD_eq_getElem?_getD, List.getElem?_eq_none (Nat.not_lt.mp hlt), Option.getD_none]
      rw [hload, hnone] at hne
      exact absurd rfl hne

/-- A new object has not been loaded. -/
lemma append_new (h : ResidentSoFar m objects) (identity : ByteString) (image : List UInt8) :
    ResidentSoFar m (objects ++ [{ identity := identity, image := image }]) := by
  intro object hobject hne
  rcases List.mem_append.mp hobject with hmem | hmem
  · exact h object hmem hne
  · rw [List.mem_singleton.mp hmem] at hne
    exact absurd rfl hne

end ResidentSoFar

namespace GraphLoadContext

variable {P : Type} {ctx ctx' : GraphLoadContext P} {options : Elf32DependencyLoadOptions}

/-- A load that succeeds is one of the image of its object. -/
lemma loadAt_loaded {index : ℕ} {requireDynamic : Bool}
    (h : ctx.loadAt options index requireDynamic = (.ok (), ctx')) :
    ∃ load loadOptions, loadElf32 ctx.memory (ctx.object index).image loadOptions
        = (.ok load, ctx'.memory)
      ∧ ctx'.graph.objects
        = ctx.graph.objects.set index { ctx.object index with load := load } := by
  rw [loadAt] at h
  split at h
  · cases h
  rename_i load memory hobject
  cases h
  rw [loadObject] at hobject
  split at hobject
  · cases hobject
  split at hobject
  · cases hobject
  split at hobject
  · cases hobject
  rename_i loadOptions _
  split at hobject
  · cases hobject
  rename_i hrun
  cases hobject
  exact ⟨load, loadOptions, hrun, rfl⟩

/-- The steps of a run keep what is loaded resident. -/
lemma resident_rule [Elf32DependencyProvider P] (options : Elf32DependencyLoadOptions) :
    @ProcessRule P _ options (fun ctx => ResidentSoFar ctx.memory ctx.graph.objects)
      (fun _ _ => True) fun _ => True where
  named _ := trivial
  discovered _ _ := trivial
  tooDeep _ _ := trivial
  begun h _ := h
  ended h _ := h
  loaded {ctx ctx' index requireDynamic} h _ hload := by
    obtain ⟨load, loadOptions, hrun, hobjects⟩ := loadAt_loaded hload
    have hm := (loadElf32_acquired hrun).spares.preserves
    rw [hobjects]
    intro object hobject hne
    rcases List.mem_or_eq_of_mem_set hobject with hmem | rfl
    · exact (h object hmem hne).mono hm
    · exact ⟨ctx.memory, ctx'.memory, loadOptions, hrun, .refl _⟩
  inspected {ctx index} h _ := by
    obtain ⟨hsource, hload, -⟩ := inspectObject_kept ctx.memory (ctx.object index) options
    have himage := congrArg Elf32DependencySource.image hsource
    have hset : ResidentSoFar ctx.memory (ctx.inspectAt options index).2.graph.objects :=
      h.set himage hload
    rw [inspectAt]
    rcases (inspectObject ctx.memory (ctx.object index) options).1 with _ | _
    · trivial
    · exact hset
  acquired {ctx index} h _ := by
    simp only [acquireAt]
    split
    · trivial
    split
    · trivial
    split
    · exact ⟨h, fun _ hd => absurd hd List.not_mem_nil⟩
    split
    · trivial
    rename_i hresolve
    split
    · trivial
    · exact ⟨h, (resolveElf32Dependencies_ok hresolve).1⟩
  mismatched _ := trivial
  full _ := trivial
  known h _ _ _ := h.set rfl rfl
  added {ctx index dependency} h _ _ _ _ :=
    (h.append_new dependency.identity dependency.image).set rfl rfl

/-- The invariant of a run, with no objects to start from. -/
lemma Holds.of_base {base : List Elf32LoadedDependencyObject} (h : ctx.Holds m₀ base) :
    ctx.Holds m₀ [] :=
  ⟨⟨ List.nil_prefix, (Nat.zero_le _).trans_lt h.graph.root, List.nil_prefix, h.graph.indices,
    h.graph.ok⟩, h.acquired⟩

end GraphLoadContext

/-! ### Link maps -/

/-- The objects of a link map are resident, each on pages of its own. -/
structure LinkMapResident (m : MappedGuestMemory) (objects : List Elf32LoadedDependencyObject) :
    Prop where
  resident : ∀ object ∈ objects, object.Resident m
  apart : objects.Pairwise fun object object' =>
    Disjoint (m.rangePages object.load.ranges) (m.rangePages object'.load.ranges)

lemma LinkMapResident.mono {objects : List Elf32LoadedDependencyObject}
    (h : LinkMapResident m objects) (hm : m.Preserves m') : LinkMapResident m' objects where
  resident object hobject := (h.resident object hobject).mono hm
  apart := by simpa only [rangePages_congr hm.pageSize] using h.apart

/-- **A run that succeeds adds resident objects**, behind those that were there. -/
lemma LinkMapResident.processed {P : Type} [Elf32DependencyProvider P]
    {options : Elf32DependencyLoadOptions} {base : List Elf32LoadedDependencyObject}
    {identity : ByteString} {image : List UInt8} {ctx ctx' : GraphLoadContext (Recorded P)}
    (hbase : LinkMapResident m base) (hholds : ctx.Holds m base) (hmemory : ctx.memory = m)
    (hloads : ctx.successfulLoads = [])
    (hentering : GraphLoadContext.Entering ctx base { identity := identity, image := image })
    (hrun : GraphLoadContext.processObject options (options.maxDepth.toNat + 1) base.length false
      ctx = (.ok (), ctx')) :
    LinkMapResident ctx'.memory ctx'.graph.objects := by
  obtain ⟨hholds', head, rest, hprocessed⟩ :=
    GraphLoadContext.processObject_grown hholds.of_base hentering hrun
  have hacquired := hholds'.acquired
  rw [hprocessed.grown.loads, hloads, List.nil_append] at hacquired
  have hpreserves := hacquired.spares.preserves
  have hsofar : ResidentSoFar ctx.memory ctx.graph.objects := by
    rw [hentering.objects, hmemory]
    exact ResidentSoFar.append_new (fun object hobject _ => hbase.resident object hobject) _ _
  have hleaves := (GraphLoadContext.processObject_rule
    (GraphLoadContext.resident_rule (P := Recorded P) options) (options.maxDepth.toNat + 1) 0
    base.length false hsofar).leaves
  rw [hrun] at hleaves
  rw [hprocessed.objects]
  refine ⟨fun object hobject => ?_, List.pairwise_append.mpr ⟨?_, ?_, ?_⟩⟩
  · rcases List.mem_append.mp hobject with hmem | hmem
    · exact (hbase.resident object hmem).mono hpreserves
    · obtain ⟨m₁, m₂, loadOptions, hload⟩ := (hprocessed.grown.complete object hmem).loaded
      exact hleaves object (hprocessed.objects ▸ hobject) (loadElf32_segments_ne hload)
  · simpa only [rangePages_congr hpreserves.pageSize] using hbase.apart
  · -- the ranges of different loads of the run do not meet
    have hdisjoint := hacquired.disjoint
    rw [loadedRanges, List.flatMap_map, List.pairwise_flatMap] at hdisjoint
    refine hdisjoint.2.imp fun {object object'} hranges => ?_
    rw [rangePages_congr hpreserves.pageSize, rangePages_congr hpreserves.pageSize,
      Set.disjoint_left]
    rintro page ⟨r, hr, hp⟩ ⟨r', hr', hp'⟩
    exact Set.disjoint_left.mp (hranges r hr r' hr') hp hp'
  · -- the pages of the run were free, those of the objects before it are mapped
    intro object hobject object' hobject'
    rw [rangePages_congr hpreserves.pageSize, rangePages_congr hpreserves.pageSize,
      Set.disjoint_left]
    rintro page hp ⟨r', hr', hp'⟩
    refine hacquired.free page ⟨r', ?_, hp'⟩
      ((hbase.resident object hobject).rangePages_mapped page hp)
    rw [loadedRanges, List.flatMap_map, List.mem_flatMap]
    exact ⟨object', hobject', hr'⟩

/-- **An append leaves the objects as they are, or processes one new root behind them.** -/
lemma appendElf32LinkMapRoot_processes {P : Type} [Elf32DependencyProvider P]
    (m : MappedGuestMemory) (linkMap : Elf32LinkMap) (root : Elf32DependencyLoadSource)
    (provider : Recorded P) (options : Elf32DependencyLoadOptions)
    (rootPolicy : Elf32LinkMapRootPolicy) :
    let appended := appendElf32LinkMapRoot m linkMap root provider options rootPolicy
    appended.2.1.graph.objects = linkMap.graph.objects
      ∨ ∃ ctx ctx', ctx.Holds m linkMap.graph.objects ∧ ctx.memory = m ∧ ctx.provider = provider
        ∧ ctx.successfulLoads = []
        ∧ GraphLoadContext.Entering ctx linkMap.graph.objects
          { identity := root.identity, image := root.image }
        ∧ GraphLoadContext.processObject options (options.maxDepth.toNat + 1)
          linkMap.graph.objects.length false ctx = (.ok (), ctx')
        ∧ appended.2.1.graph = ctx'.graph ∧ appended.2.2 = (ctx'.memory, ctx'.provider) := by
  intro appended
  have happended : appended = appendElf32LinkMapRoot m linkMap root provider options rootPolicy :=
    rfl
  rw [appendElf32LinkMapRoot] at happended
  cases hroot : checkRoot root options with
  | error failure =>
      rw [happended, hroot]
      exact .inl rfl
  | ok u =>
      simp only [hroot] at happended
      split at happended
      · rw [happended]
        exact .inl rfl
      cases hcheck : checkLinkMap linkMap with
      | error failure =>
          rw [happended, hcheck]
          exact .inl rfl
      | ok index =>
          obtain ⟨hok, rfl⟩ := checkLinkMap_ok_iff.mp hcheck
          simp only [hcheck] at happended
          cases hlookup : (identityIndex linkMap.graph.objects).lookup root.identity with
          | some rootIndex =>
              rw [happended, hlookup]
              simp only [reuseRoot]
              split
              · exact .inl rfl
              · exact .inl rfl
          | none =>
              simp only [hlookup] at happended
              split at happended
              · rw [happended]
                exact .inl rfl
              have hstart := appendContext_holds m hok.graph (checkRoot_identity hroot)
                hlookup (scopeMarks linkMap.graph.objects.length linkMap.globalScopeObjects)
                provider
              have hrun := GraphLoadContext.processObject_leaves options
                (options.maxDepth.toNat + 1) linkMap.graph.objects.length false hstart
              split at happended
              · rename_i failure ctx heq
                rw [heq] at hrun
                rw [happended]
                exact .inl (take_of_kept hrun.graph.kept)
              · rename_i ctx heq
                refine .inr ⟨_, ctx, hstart, rfl, rfl, rfl, ⟨rfl, ⟨_, rfl, ?_, ?_⟩, rfl⟩, heq,
                  ?_, ?_⟩
                · exact List.length_replicate
                · exact fun hmem => absurd (List.eq_of_mem_replicate hmem) (by decide)
                · rw [happended]
                  rfl
                · rw [happended]

/-- **An append keeps a link map resident**, however it ends. -/
lemma appendElf32LinkMapRoot_resident {P : Type} [Elf32DependencyProvider P]
    {linkMap : Elf32LinkMap} (h : LinkMapResident m linkMap.graph.objects)
    (root : Elf32DependencyLoadSource) (provider : P) (options : Elf32DependencyLoadOptions)
    (rootPolicy : Elf32LinkMapRootPolicy) :
    LinkMapResident (appendElf32LinkMapRoot m linkMap root provider options rootPolicy).2.2.1
      (appendElf32LinkMapRoot m linkMap root provider options rootPolicy).2.1.graph.objects := by
  have hrecorded := appendElf32LinkMapRoot_map recorded_hom m linkMap root (Recorded.mk provider [])
    options rootPolicy
  change appendElf32LinkMapRoot m linkMap root provider options rootPolicy = _ at hrecorded
  rw [hrecorded]
  rcases appendElf32LinkMapRoot_processes m linkMap root (Recorded.mk provider []) options
    rootPolicy with hsame | ⟨ctx, ctx', hholds, hmemory, -, hloads, hentering, hrun, hgraph, hend⟩
  · dsimp only
    rw [hsame]
    exact h.mono (appendElf32LinkMapRoot_spares m linkMap root (Recorded.mk provider []) options
      rootPolicy).preserves
  · dsimp only
    rw [hgraph, hend]
    exact h.processed hholds hmemory hloads hentering hrun

end LibA32Android
