/-
Sessions of the runtime: what holds over any sequence of its calls.

A caller owns a guest memory, a link map, a dependency provider and a service handler, and
makes the calls of the runtime on them in any order, with any arguments.  The host refuses
what it likes.  The caller's own `protect` and `unmap` are not among the calls: they are meant
to change what the results below say stays.

* `Session`, `RuntimeCall`, `Session.perform`: the state of a caller and the calls;
* `Session.run_keeps`: what each call keeps, every sequence keeps;
* `run_mapProvider`: a provider that gives the same answers makes no difference;
* `session_preserves`: nothing is unmapped, no permission is added, and what cannot be
  written does not change;
* `session_resident`: the objects of the link map stay in memory, each on its own pages;
* `session_sealed`: RELRO that was sealed stays as it was sealed;
* `session_lookup`: lookups whose tables cannot be written keep their answers;
* `session_fastmem`: direct memory accesses are exact in every state.
-/
import LibA32Android.Elf.ConservativeAppend
import LibA32Android.Elf.InitExecution
import LibA32Android.Elf.Residency
import LibA32Android.Elf.ResourceCeilings
import LibA32Android.Runtime.GuestIsolation

namespace LibA32Android

open Foundations MappedGuestMemory QueryProgram

/-! ### Calls -/

/-- What a caller of the runtime owns. -/
structure Session (P H : Type) where
  memory : MappedGuestMemory
  linkMap : Elf32LinkMap := {}
  provider : P
  handlerState : H

/-- A call of the runtime.  An append works on the link map of the session; relocation and
sealing take whatever graph or load the caller passes. -/
inductive RuntimeCall where
  | map (address : UInt32) (length : ℕ) (permissions : MemoryPermission)
  | write (address : UInt32) (input : List UInt8)
  | loadElf32 (image : List UInt8) (options : Elf32LoadOptions)
  | loadGraph (root : Elf32DependencyLoadSource) (options : Elf32DependencyLoadOptions)
  | appendRoot (root : Elf32DependencyLoadSource) (options : Elf32DependencyLoadOptions)
      (rootPolicy : Elf32LinkMapRootPolicy)
  | applyRel (graph : Elf32DependencyGraph) (objectIndex : ℕ) (options : Elf32RelocationOptions)
  | applyPltRel (graph : Elf32DependencyGraph) (objectIndex : ℕ)
      (options : Elf32RelocationOptions)
  | applyCombined (graph : Elf32DependencyGraph) (objectIndex : ℕ)
      (options : Elf32RelocationOptions)
  | sealRelro (load : Elf32LoadResult) (options : Elf32RelroOptions)
  | executeInitCalls (options : Elf32InitExecutionOptions) (calls : List Elf32InitCall)
  | execute (request : ExecutionRequest)
  | dispatch (request : ExecutionRequest) (maxServiceCalls : ℕ)

variable {P H : Type}

namespace Session

section Perform

variable [Elf32DependencyProvider P] (engine : CallbackEngine) (program : ServiceProgram H)

/-- The state after a call, whatever the call returns. -/
def perform (s : Session P H) : RuntimeCall → Session P H
  | .map address length permissions =>
    { s with memory := (s.memory.map address length permissions).2 }
  | .write address input => { s with memory := (GuestMemory.write s.memory address input).2 }
  | .loadElf32 image options =>
    { s with memory := (LibA32Android.loadElf32 s.memory image options).2 }
  | .loadGraph root options =>
    let loaded := loadElf32DependencyGraph s.memory root s.provider options
    { s with memory := loaded.2.1, provider := loaded.2.2 }
  | .appendRoot root options rootPolicy =>
    let appended := appendElf32LinkMapRoot s.memory s.linkMap root s.provider options rootPolicy
    { s with linkMap := appended.2.1, memory := appended.2.2.1, provider := appended.2.2.2 }
  | .applyRel graph objectIndex options =>
    { s with memory := (applyElf32RelRelocations s.memory graph objectIndex options).2 }
  | .applyPltRel graph objectIndex options =>
    { s with memory := (applyElf32PltRelRelocations s.memory graph objectIndex options).2 }
  | .applyCombined graph objectIndex options =>
    { s with memory := (applyElf32CombinedRelocations s.memory graph objectIndex options).2 }
  | .sealRelro load options =>
    { s with memory := (sealElf32GnuRelro s.memory load options).2 }
  | .executeInitCalls options calls =>
    { s with
      memory := (executeElf32InitCalls (engine.on MappedGuestMemory) options s.memory calls).2 }
  | .execute request =>
    { s with memory := (LibA32Android.execute (engine.on MappedGuestMemory) s.memory request).2 }
  | .dispatch request maxServiceCalls =>
    (executeA32WithServices (engine.on MappedGuestMemory) s.memory request
        (program.on MappedGuestMemory) s.handlerState maxServiceCalls).elim s fun final =>
      { s with memory := final.memory, handlerState := final.handlerState }

/-- The state after a sequence of calls. -/
def run (s : Session P H) (calls : List RuntimeCall) : Session P H :=
  calls.foldl (perform engine program) s

/-- The session with another representation of the provider. -/
def mapProvider {Q : Type} (φ : Q → P) (s : Session Q H) : Session P H where
  memory := s.memory
  linkMap := s.linkMap
  provider := φ s.provider
  handlerState := s.handlerState

variable {engine program}

/-- **What every call keeps, every sequence of calls keeps.** -/
lemma run_keeps {K : Session P H → Prop}
    (hcall : ∀ s call, K s → K (s.perform engine program call)) {s : Session P H} (h : K s)
    (calls : List RuntimeCall) : K (s.run engine program calls) := by
  induction calls generalizing s with
  | nil => exact h
  | cons call calls ih => exact ih (hcall s call h)

end Perform

end Session

/-! ### One call -/

section Calls

variable [Elf32DependencyProvider P] (engine : CallbackEngine) (program : ServiceProgram H)

/-- A sequence of constructors writes to writable pages. -/
lemma executeElf32InitCalls_writtenTo (options : Elf32InitExecutionOptions)
    (m : MappedGuestMemory) (calls : List Elf32InitCall) :
    m.WrittenTo (executeElf32InitCalls (engine.on MappedGuestMemory) options m calls).2 := by
  have hfrom : ∀ (calls : List Elf32InitCall) (index completed : ℕ) (m : MappedGuestMemory),
      m.WrittenTo (executeInitCallsFrom (engine.on MappedGuestMemory) options calls index completed
        m).2 := by
    intro calls
    induction calls with
    | nil => exact fun _ _ m => .refl m
    | cons call calls ih =>
        intro index completed m
        have hone := execute_confined engine m (call.request options)
        rw [executeInitCallsFrom]
        split
        · exact .refl m
        dsimp only
        split
        · exact hone
        · exact hone.trans (ih _ _ _)
  rw [executeElf32InitCalls]
  split
  · exact .refl m
  · exact hfrom calls 0 0 m

/-- A dispatched run writes to writable pages. -/
lemma perform_dispatch_writtenTo (s : Session P H) (request : ExecutionRequest)
    (maxServiceCalls : ℕ) :
    s.memory.WrittenTo (s.perform engine program (.dispatch request maxServiceCalls)).memory := by
  obtain ⟨final, hrun, hwritten⟩ := dispatch_writtenTo engine program s.memory request
    s.handlerState maxServiceCalls
  rw [Session.perform, hrun]
  exact hwritten

/-- **Every call preserves the memory.** -/
lemma perform_preserves (s : Session P H) (call : RuntimeCall) :
    s.memory.Preserves (s.perform engine program call).memory := by
  cases call with
  | map address length permissions =>
      exact (map_spares s.memory address length permissions).preserves
  | write address input => exact (WrittenTo.write s.memory address input).preserves
  | loadElf32 image options => exact (loadElf32_spares s.memory image options).preserves
  | loadGraph root options =>
      exact (loadElf32DependencyGraph_spares s.memory root s.provider options).preserves
  | appendRoot root options rootPolicy =>
      exact (appendElf32LinkMapRoot_spares s.memory s.linkMap root s.provider options
        rootPolicy).preserves
  | applyRel graph objectIndex options => exact (applyPrepared_writtenTo ..).preserves
  | applyPltRel graph objectIndex options => exact (applyPrepared_writtenTo ..).preserves
  | applyCombined graph objectIndex options => exact (applyPrepared_writtenTo ..).preserves
  | sealRelro load options => exact sealElf32GnuRelro_preserves ..
  | executeInitCalls options calls =>
      exact (executeElf32InitCalls_writtenTo engine options s.memory calls).preserves
  | execute request => exact (execute_confined engine s.memory request).preserves
  | dispatch request maxServiceCalls =>
      exact (perform_dispatch_writtenTo engine program s request maxServiceCalls).preserves

/-- **Every call keeps the host pages in step with the page states.** -/
lemma perform_hostFollows (s : Session P H) (call : RuntimeCall) (h : s.memory.HostFollows) :
    (s.perform engine program call).memory.HostFollows := by
  cases call with
  | map address length permissions => exact hostFollows_kept.map _ _ _ _ h
  | write address input => exact hostFollows_kept.write _ _ _ h
  | loadElf32 image options => exact loadElf32_kept hostFollows_kept h image options
  | loadGraph root options =>
      exact loadElf32DependencyGraph_kept hostFollows_kept h root s.provider options
  | appendRoot root options rootPolicy =>
      exact appendElf32LinkMapRoot_kept hostFollows_kept h s.linkMap root s.provider options
        rootPolicy
  | applyRel graph objectIndex options => exact (applyPrepared_writtenTo ..).hostFollows h
  | applyPltRel graph objectIndex options => exact (applyPrepared_writtenTo ..).hostFollows h
  | applyCombined graph objectIndex options => exact (applyPrepared_writtenTo ..).hostFollows h
  | sealRelro load options => exact sealElf32GnuRelro_kept hostFollows_kept h load options
  | executeInitCalls options calls =>
      exact (executeElf32InitCalls_writtenTo engine options s.memory calls).hostFollows h
  | execute request => exact (execute_confined engine s.memory request).hostFollows h
  | dispatch request maxServiceCalls =>
      exact (perform_dispatch_writtenTo engine program s request maxServiceCalls).hostFollows h

/-- The link map of a call that is not an append stays as it is. -/
lemma perform_linkMap (s : Session P H) (call : RuntimeCall) :
    (s.perform engine program call).linkMap = s.linkMap
      ∨ ∃ root options rootPolicy, call = .appendRoot root options rootPolicy := by
  cases call with
  | appendRoot root options rootPolicy => exact .inr ⟨root, options, rootPolicy, rfl⟩
  | dispatch request maxServiceCalls =>
      obtain ⟨final, hrun, -⟩ := dispatch_writtenTo engine program s.memory request s.handlerState
        maxServiceCalls
      rw [Session.perform, hrun]
      exact .inl rfl
  | _ => exact .inl rfl

/-- **What every request to the provider keeps, every call keeps.** -/
lemma perform_provider {R : P → Prop} (hR : Counts fun provider (_ : ℕ) => R provider)
    (s : Session P H) (call : RuntimeCall) (h : R s.provider) :
    R (s.perform engine program call).provider := by
  cases call with
  | loadGraph root options =>
      obtain ⟨_, -, hkept⟩ :=
        (loadElf32DependencyGraph_run s.memory root s.provider options).counted hR h
      exact hkept
  | appendRoot root options rootPolicy =>
      obtain ⟨_, -, hkept⟩ := (appendElf32LinkMapRoot_run s.memory s.linkMap root s.provider
        options rootPolicy).counted hR h
      exact hkept
  | dispatch request maxServiceCalls =>
      obtain ⟨final, hrun, -⟩ := dispatch_writtenTo engine program s.memory request s.handlerState
        maxServiceCalls
      rw [Session.perform, hrun]
      exact h
  | _ => exact h

/-- A provider that gives the same answers makes no difference to a call. -/
lemma perform_mapProvider {Q : Type} [Elf32DependencyProvider Q] {φ : Q → P}
    (hφ : ProviderHom φ) (s : Session Q H) (call : RuntimeCall) :
    (s.mapProvider φ).perform engine program call
      = (s.perform engine program call).mapProvider φ := by
  cases call with
  | loadGraph root options =>
      simp only [Session.perform, Session.mapProvider, loadElf32DependencyGraph_map hφ, mapResult]
  | appendRoot root options rootPolicy =>
      simp only [Session.perform, Session.mapProvider, appendElf32LinkMapRoot_map hφ]
  | dispatch request maxServiceCalls =>
      obtain ⟨final, hrun, -⟩ := dispatch_writtenTo engine program s.memory request s.handlerState
        maxServiceCalls
      simp only [Session.perform, Session.mapProvider, hrun, Option.elim_some]
  | _ => rfl

/-- **Every call keeps the graph of the link map well formed**, also an append with a policy
that has no name. -/
lemma perform_graphOk (s : Session P H) (call : RuntimeCall)
    (h : GraphOk s.linkMap.graph.objects) :
    GraphOk (s.perform engine program call).linkMap.graph.objects := by
  rcases perform_linkMap engine program s call with hsame | ⟨root, options, rootPolicy, rfl⟩
  · rwa [hsame]
  · exact (appendElf32LinkMapRoot_outcome s.memory s.linkMap root s.provider options
      rootPolicy).keeps.1 h

/-- **Every call keeps the objects of the link map resident.** -/
lemma perform_resident (s : Session P H) (call : RuntimeCall)
    (h : LinkMapResident s.memory s.linkMap.graph.objects) :
    LinkMapResident (s.perform engine program call).memory
      (s.perform engine program call).linkMap.graph.objects := by
  rcases perform_linkMap engine program s call with hsame | ⟨root, options, rootPolicy, rfl⟩
  · rw [hsame]
    exact h.mono (perform_preserves engine program s call)
  · exact appendElf32LinkMapRoot_resident h root s.provider options rootPolicy

end Calls

/-! ### Sequences of calls -/

section Runs

variable [Elf32DependencyProvider P] (engine : CallbackEngine) (program : ServiceProgram H)

/-- A provider that gives the same answers makes no difference to a session. -/
lemma run_mapProvider {Q : Type} [Elf32DependencyProvider Q] {φ : Q → P} (hφ : ProviderHom φ)
    (s : Session Q H) (calls : List RuntimeCall) :
    (s.mapProvider φ).run engine program calls
      = (s.run engine program calls).mapProvider φ := by
  induction calls generalizing s with
  | nil => rfl
  | cons call calls ih =>
      rw [Session.run, List.foldl_cons, perform_mapProvider engine program hφ]
      exact ih (s.perform engine program call)

lemma run_preserves (s : Session P H) (calls : List RuntimeCall) :
    s.memory.Preserves (s.run engine program calls).memory :=
  Session.run_keeps (K := fun s' => s.memory.Preserves s'.memory)
    (fun s' call h => h.trans (perform_preserves engine program s' call)) (.refl _) calls

lemma run_objects_kept (s : Session P H) (calls : List RuntimeCall) :
    s.linkMap.graph.objects <+: (s.run engine program calls).linkMap.graph.objects := by
  refine Session.run_keeps
    (K := fun s' => s.linkMap.graph.objects <+: s'.linkMap.graph.objects) (fun s' call h => ?_)
    List.prefix_rfl calls
  rcases perform_linkMap engine program s' call with hsame | ⟨root, options, rootPolicy, rfl⟩
  · rwa [hsame]
  · exact h.trans (appendElf32LinkMapRoot_outcome s'.memory s'.linkMap root s'.provider options
      rootPolicy).keeps.2.2.1

/-- **Nothing that a session has mapped is taken away or exposed.**  Over every sequence of
calls, with any arguments and any answers of the host, mapped pages stay mapped, get no
permission that they did not have and can be read as before, bytes of pages that cannot be
written do not change, and the link map keeps its objects at their indices. -/
theorem session_preserves (s : Session P H) (calls : List RuntimeCall) :
    (∀ page, s.memory.Mapped page → (s.run engine program calls).memory.Mapped page
        ∧ (∀ required, (s.run engine program calls).memory.Grants required page →
          s.memory.Grants required page)
        ∧ (s.memory.Grants .read page →
          (s.run engine program calls).memory.Grants .read page))
      ∧ (∀ x, s.memory.Mapped (x / s.memory.pageSize) →
        ¬s.memory.Grants .write (x / s.memory.pageSize) →
        (s.run engine program calls).memory.reservation x = s.memory.reservation x)
      ∧ s.linkMap.graph.objects <+: (s.run engine program calls).linkMap.graph.objects := by
  have hmemory := run_preserves engine program s calls
  exact ⟨fun page hm => ⟨hmemory.mapped page hm, fun required => hmemory.narrows page required hm,
    hmemory.readable page⟩, hmemory.bytes, run_objects_kept engine program s calls⟩

/-- **Loaded objects stay in memory.**  Start with an empty link map over any memory.  After
every sequence of calls each segment of each object of the link map is mapped with no more
than the permissions of its flags and with `Read` if it is among them, a segment without
`Write` has the bytes of its image and zeros behind them, and segments of different objects do
not share a page. -/
theorem session_resident (memory : MappedGuestMemory) (provider : P) (handlerState : H)
    (calls : List RuntimeCall) :
    let s := ({ memory, provider, handlerState } : Session P H).run engine program calls
    (∀ object ∈ s.linkMap.graph.objects, ∀ header ∈ mappedHeaders object.image,
        SegmentResident s.memory object header)
      ∧ s.linkMap.graph.objects.Pairwise fun object object' =>
          ∀ header ∈ mappedHeaders object.image, ∀ header' ∈ mappedHeaders object'.image,
            Disjoint (header.footprint s.memory.pageSize object.load.loadBias.toNat)
              (header'.footprint s.memory.pageSize object'.load.loadBias.toNat) := by
  intro s
  have hresident : LinkMapResident s.memory s.linkMap.graph.objects :=
    Session.run_keeps (K := fun s => LinkMapResident s.memory s.linkMap.graph.objects)
      (fun s call h => perform_resident engine program s call h)
      ⟨fun _ hobject => absurd hobject List.not_mem_nil, .nil⟩ calls
  refine ⟨fun object hobject header hheader => (hresident.resident object hobject).segment hheader,
    hresident.apart.imp_of_mem fun {object object'} hobject hobject' hapart => ?_⟩
  intro header hheader header' hheader'
  rw [Set.disjoint_left]
  intro x hx hx'
  exact Set.disjoint_left.mp hapart
    ((hresident.resident object hobject).page_of_footprint hheader hx)
    ((hresident.resident object' hobject').page_of_footprint hheader' hx')

/-- **Sealed RELRO stays sealed.**  Once sealing the RELRO of a load has succeeded, over
every sequence of later calls its pages are mapped and not writable, and no byte of them
changes. -/
theorem session_sealed (s : Session P H) (load : Elf32LoadResult) (options : Elf32RelroOptions)
    {sealedPages : UInt32} (h : (sealElf32GnuRelro s.memory load options).1 = .ok sealedPages)
    (calls : List RuntimeCall) :
    let s' := s.run engine program (.sealRelro load options :: calls)
    ∀ page ∈ s.memory.relroPages load.relroSegments,
      s'.memory.Mapped page ∧ ¬s'.memory.Grants .write page
        ∧ ∀ x, x / s.memory.pageSize = page → s'.memory.reservation x = s.memory.reservation x := by
  intro s' page hpage
  have hsealed := sealElf32GnuRelro_read h page hpage
  have hbytes := sealElf32GnuRelro_reservation s.memory load options
  have hfirst := sealElf32GnuRelro_preserves s.memory load options
  generalize hm : (sealElf32GnuRelro s.memory load options).2 = m at *
  have hlater : m.Preserves s'.memory :=
    hm ▸ run_preserves engine program (s.perform engine program (.sealRelro load options)) calls
  have hmapped : m.Mapped page := by
    rw [mapped_iff_isSome, hsealed]
    rfl
  have hwrite : ¬m.Grants .write page := by
    rw [grants_iff, hsealed]
    rintro ⟨permissions, hread, hgranted⟩
    cases hread
    exact absurd hgranted (by decide)
  obtain ⟨hmapped', hwrite'⟩ := hlater.not_writable hmapped hwrite
  refine ⟨hmapped', hwrite', fun x hx => ?_⟩
  rw [← hfirst.pageSize] at hx
  rw [hlater.bytes x (hx ▸ hmapped) (hx ▸ hwrite), hbytes]

/-- A page is sealed, and a write to it is refused. -/
theorem session_sealed_write :
    let memory := (vacantMemory.map 0x1000 0x1000 (.read ||| .write)).2
    let load : Elf32LoadResult := { relroSegments := [⟨0x1000, 0x800, 0x1000, 0x1000⟩] }
    let s : Session SourceTable Unit := { memory, provider := ⟨[]⟩, handlerState := () }
    let s' := s.run loadByteEngine noServices [.sealRelro load ⟨1⟩, .write 0x1000 [7]]
    (sealElf32GnuRelro s.memory load ⟨1⟩).1 = .ok 1
      ∧ s'.memory.Mapped 1 ∧ s'.memory.reservation 0x1000 = s.memory.reservation 0x1000 := by
  intro memory load s s'
  have hsealed : (sealElf32GnuRelro s.memory load ⟨1⟩).1 = .ok 1 := by decide +kernel
  have hpage : 1 ∈ memory.pages 0x1000 0x1000 := mem_pages.mpr (by decide +kernel)
  obtain ⟨hmapped, -, hbytes⟩ := session_sealed loadByteEngine noServices s load ⟨1⟩ hsealed
    [.write 0x1000 [7]] 1 ⟨⟨0x1000, 0x800, 0x1000, 0x1000⟩, List.mem_singleton_self _, hpage⟩
  exact ⟨hsealed, hmapped, hbytes 0x1000 (by decide +kernel)⟩

/-- **Lookups whose tables cannot be written keep their answers.**  Start with an empty link
map and make any calls.  Take a lookup from an object of the link map that finds a definition
or finds out that there is none, and that reads from pages only that cannot be written.
Whatever is loaded, relocated, sealed and run after it, the lookup gives the same answer. -/
theorem session_lookup (memory : MappedGuestMemory) (provider : P) (handlerState : H)
    (calls later : List RuntimeCall) (startObject : ℕ) (name : ByteString)
    (options : Elf32SymbolLookupOptions) :
    let s := ({ memory, provider, handlerState } : Session P H).run engine program calls
    let s' := s.run engine program later
    let lookup := lookupElf32GraphSymbol s.linkMap.graph startObject name options
    startObject < s.linkMap.graph.objects.length →
      IsDefinite (lookup.under (GuestMemory.reads s.memory)) →
      (∀ span ∈ lookup.asked (GuestMemory.reads s.memory), s.memory.ReadOnlySpan span) →
      (lookupElf32GraphSymbol s'.linkMap.graph startObject name options).under
          (GuestMemory.reads s'.memory)
        = lookup.under (GuestMemory.reads s.memory) := by
  classical
  intro s s' lookup hstart hdefinite hreadOnly
  have hok : GraphOk s.linkMap.graph.objects :=
    Session.run_keeps (K := fun s => GraphOk s.linkMap.graph.objects)
      (fun s call h => perform_graphOk engine program s call h) LinkMapOk.empty.graph calls
  have hok' : GraphOk s'.linkMap.graph.objects :=
    Session.run_keeps (K := fun s => GraphOk s.linkMap.graph.objects)
      (fun s call h => perform_graphOk engine program s call h) hok later
  have hpreserves : s.memory.Preserves s'.memory := run_preserves engine program s later
  -- the reads that later calls cannot change: the lookup asks for no others
  let fixed : UInt32 × ℕ → Option (List UInt8) := fun span =>
    if s.memory.ReadOnlySpan span then GuestMemory.reads s.memory span else none
  have hfixed : lookup.under fixed = lookup.under (GuestMemory.reads s.memory) :=
    under_congr_asked fun span hspan => if_pos (hreadOnly span hspan)
  have hext : Extends fixed (GuestMemory.reads s'.memory) := by
    intro span out hout
    by_cases hspan : s.memory.ReadOnlySpan span
    · exact hpreserves.reads_eq hspan ((if_pos hspan).symm.trans hout)
    · exact absurd ((if_neg hspan).symm.trans hout) (by simp)
  rw [← hfixed] at hdefinite ⊢
  exact lookupElf32GraphSymbol_extends hext hok.edgesInRange hok'.edgesInRange
    (run_objects_kept engine program s later) hstart name options hdefinite

/-- A library whose one segment is read-only, with a string table, a symbol table with the
function `f`, and a SysV hash table. -/
def symbolImage : List UInt8 :=
  [0x7f, 0x45, 0x4c, 0x46, 1, 1, 1, 0, 0, 0, 0, 0, 0, 0, 0, 0,
   3, 0, 40, 0, 1, 0, 0, 0, 0, 0, 0, 0, 52, 0, 0, 0,
   0, 0, 0, 0, 0, 0, 0, 0, 52, 0, 32, 0, 2, 0, 0, 0, 0, 0, 0, 0,
   1, 0, 0, 0, 0, 0, 0, 0, 0, 0, 0, 0, 0, 0, 0, 0,
   220, 0, 0, 0, 220, 0, 0, 0, 4, 0, 0, 0, 0, 16, 0, 0,
   2, 0, 0, 0, 116, 0, 0, 0, 116, 0, 0, 0, 116, 0, 0, 0,
   48, 0, 0, 0, 48, 0, 0, 0, 4, 0, 0, 0, 4, 0, 0, 0,
   5, 0, 0, 0, 164, 0, 0, 0, 10, 0, 0, 0, 3, 0, 0, 0,
   6, 0, 0, 0, 168, 0, 0, 0, 11, 0, 0, 0, 16, 0, 0, 0,
   4, 0, 0, 0, 200, 0, 0, 0, 0, 0, 0, 0, 0, 0, 0, 0] ++ symbolBytes

/-- A session that has loaded it. -/
def symbolSession : Session SourceTable Unit :=
  Session.run loadByteEngine noServices
    { memory := vacantMemory, provider := ⟨[]⟩, handlerState := () }
    [.appendRoot ⟨[97], symbolImage⟩ wideOptions .global]

/-- What happens later: a write to its string table, a second library, and guest code. -/
def laterCalls : List RuntimeCall :=
  [.write 0x100a5 [103], .appendRoot ⟨[98], tinyImage⟩ wideOptions .local, .execute {}]

theorem session_lookup_symbolImage :
    (symbolSession.run loadByteEngine noServices laterCalls).linkMap.graph.objects.length = 2
      ∧ ((lookupElf32GraphSymbol
            (symbolSession.run loadByteEngine noServices laterCalls).linkMap.graph 0 [102]
            lookupF).under
          (GuestMemory.reads (symbolSession.run loadByteEngine noServices laterCalls).memory)).map
        (·.symbol.guestValue) = .ok 0x10010 := by
  have hfound : ((lookupElf32GraphSymbol symbolSession.linkMap.graph 0 [102] lookupF).under
      (GuestMemory.reads symbolSession.memory)).map (·.symbol.guestValue) = .ok 0x10010 := by
    decide +kernel
  have hdefinite : IsDefinite ((lookupElf32GraphSymbol symbolSession.linkMap.graph 0 [102]
      lookupF).under (GuestMemory.reads symbolSession.memory)) := by
    intro failure hfailure
    rw [hfailure] at hfound
    cases hfound
  have hsession : symbolSession = _ := symbolSession.eq_1
  rw [hsession] at hdefinite
  have hsame := session_lookup loadByteEngine noServices vacantMemory (SourceTable.mk []) ()
    [.appendRoot ⟨[97], symbolImage⟩ wideOptions .global] laterCalls 0 [102] lookupF
    (by decide +kernel) hdefinite (by decide +kernel)
  rw [← hsession] at hsame
  refine ⟨by decide +kernel, ?_⟩
  rw [hsame]
  exact hfound

/-- **Direct memory accesses are exact in every state of a session.**  After every sequence of
calls on a new memory, whichever data accesses the translator makes directly to the host
pages, a call of the dispatcher ends as it does with callbacks only.  What the translator and
the host have to do for it is in `FastMemory.Assumed`: in particular no access completes beyond
the reservation, and a store that faults has stored nothing. -/
theorem session_fastmem (pageSize : ℕ) (host : ℕ → HostCall → Bool) (hdvd : pageSize ∣ 2 ^ 32)
    (provider : P) (handlerState : H) (calls : List RuntimeCall) {T : Type}
    {completes : MemoryCall → FastMemory T → Prop}
    {respond : (call : MemoryCall) → FastMemory T → call.Answer × FastMemory T}
    (hassumed : FastMemory.Assumed completes respond) (translator : T)
    (request : ExecutionRequest) (maxServiceCalls : ℕ) :
    let s := ({ memory := create pageSize host hdvd, provider, handlerState } : Session P H).run
      engine program calls
    ∃ final fast, executeA32WithServices (engine.on MappedGuestMemory) s.memory request
          (program.on MappedGuestMemory) s.handlerState maxServiceCalls = some final
        ∧ executeA32WithServices (engine.against respond) ⟨s.memory, translator⟩ request
          (program.against FastMemory.respondPlain) s.handlerState maxServiceCalls = some fast
        ∧ fast.result = final.result ∧ fast.handlerState = final.handlerState
        ∧ fast.memory.memory = final.memory := by
  intro s
  have hfollows : s.memory.HostFollows :=
    Session.run_keeps (K := fun s => s.memory.HostFollows)
      (fun s call h => perform_hostFollows engine program s call h)
      (create_hostFollows pageSize host hdvd) calls
  exact fastmem_dispatch engine program hfollows hassumed translator request s.handlerState
    maxServiceCalls

end Runs

/-- A direct access completes on a host that has an inaccessible page behind the reservation:
it lies in the reservation, and its pages allow it. -/
def MappedGuestMemory.hostCompletes (m : MappedGuestMemory) (allowed : HostProtection → Bool)
    (address : UInt32) (length : ℕ) : Bool :=
  decide (address.toNat + length ≤ 2 ^ 32)
    && (List.range length).all fun i =>
      allowed (m.hostProtection ((address.toNat + i) / m.pageSize))

lemma MappedGuestMemory.hostCompletes_iff {m : MappedGuestMemory}
    {allowed : HostProtection → Bool} {address : UInt32} {length : ℕ} :
    m.hostCompletes allowed address length = true ↔ address.toNat + length ≤ 2 ^ 32
      ∧ ∀ x, address.toNat ≤ x → x < address.toNat + length →
        allowed (m.hostProtection (x / m.pageSize)) = true := by
  rw [hostCompletes, Bool.and_eq_true, decide_eq_true_eq, List.all_eq_true]
  refine and_congr_right fun _ => ⟨fun h x hge hlt => ?_, fun h i hi => ?_⟩
  · have hallowed := h (x - address.toNat) (List.mem_range.mpr (by omega))
    rwa [show address.toNat + (x - address.toNat) = x by omega] at hallowed
  · exact h _ (by omega) (by have := List.mem_range.mp hi; omega)

/-- The accesses that complete on such a host. -/
def eagerCompletes : MemoryCall → FastMemory Unit → Prop
  | .read address length, s => s.memory.hostCompletes HostProtection.read address length = true
  | .readCode _ _, _ => False
  | .write address input, s =>
    s.memory.hostCompletes HostProtection.write address input.length = true

/-- A translator on such a host that makes every data access directly. -/
def eagerRespond : (call : MemoryCall) → FastMemory Unit → call.Answer × FastMemory Unit
  | .read address length, s =>
    if s.memory.hostCompletes HostProtection.read address length then
      (some (window s.memory.reservation address.toNat length), s)
    else FastMemory.respondPlain (.read address length) s
  | .readCode address length, s => FastMemory.respondPlain (.readCode address length) s
  | .write address input, s =>
    if s.memory.hostCompletes HostProtection.write address input.length then
      (true, ⟨s.memory.withBytes (overwrite s.memory.reservation address.toNat input), ()⟩)
    else FastMemory.respondPlain (.write address input) s

lemma eager_assumed : FastMemory.Assumed eagerCompletes eagerRespond where
  fetched _ _ _ h := h
  callback call s h := by
    cases call with
    | read address length =>
        rw [eagerCompletes] at h
        rw [eagerRespond, if_neg h]
        exact ⟨rfl, rfl⟩
    | readCode address length => exact ⟨rfl, rfl⟩
    | write address input =>
        rw [eagerCompletes] at h
        rw [eagerRespond, if_neg h]
        exact ⟨rfl, rfl⟩
  inside call s h := by
    cases call with
    | read address length => exact (hostCompletes_iff.mp h).1
    | readCode address length => exact absurd h id
    | write address input => exact (hostCompletes_iff.mp h).1
  readable _ _ _ h := (hostCompletes_iff.mp h).2
  writable _ _ _ h := (hostCompletes_iff.mp h).2
  loaded address length s h := by
    rw [eagerCompletes] at h
    rw [eagerRespond, if_pos h]
    exact ⟨rfl, rfl⟩
  stored address input s h := by
    rw [eagerCompletes] at h
    rw [eagerRespond, if_pos h]
    exact ⟨rfl, rfl⟩

/-- A page is mapped and written, and every access is a direct one. -/
theorem session_fastmem_page :
    let s := ({ memory := create 4096 (fun _ _ => true) fourKiB_dvd, provider := ⟨[]⟩
                handlerState := () } : Session SourceTable Unit).run loadByteEngine noServices
      [.map 0x1000 0x1000 (.read ||| .write), .write 0x1000 [7]]
    s.memory.hostCompletes HostProtection.read 0x1000 1 = true
      ∧ ∃ final fast, executeA32WithServices (loadByteEngine.on MappedGuestMemory) s.memory {}
          (noServices.on MappedGuestMemory) s.handlerState 1 = some final
        ∧ executeA32WithServices (loadByteEngine.against eagerRespond) ⟨s.memory, ()⟩ {}
          (noServices.against FastMemory.respondPlain) s.handlerState 1 = some fast
        ∧ fast.result = final.result := by
  intro s
  obtain ⟨final, fast, hrun, hfast, hresult, -⟩ := session_fastmem loadByteEngine noServices 4096
    (fun _ _ => true) fourKiB_dvd (SourceTable.mk []) ()
    [.map 0x1000 0x1000 (.read ||| .write), .write 0x1000 [7]] eager_assumed () {} 1
  exact ⟨by decide +kernel, final, fast, hrun, hfast, hresult⟩

end LibA32Android
