/-
Where the edges of a graph come from.

* `Answers J`: a provider answers a requester and a name only with sources that are then in
  `J`, and what is in `J` stays in it;
* `Originates J`: every edge of some objects leads to an object with such a source;
* `loadElf32DependencyGraph_originates`, `appendElf32LinkMapRoot_originates`: the edges of a
  loaded graph are answers to their own objects, and an append adds no others.
-/
import LibA32Android.Elf.ResourceCeilings
import LibA32Android.Elf.Residency

namespace LibA32Android

open Foundations GraphLoadContext

/-! ### Answers and edges -/

/-- The provider answers with sources that are in `J` of its state after the answer, and no
request takes anything out of `J`. -/
structure Answers (P : Type) [Elf32DependencyProvider P]
    (J : P → ByteString → ByteString → Elf32DependencySource → Prop) : Prop where
  answered : ∀ (provider : P) requesterIdentity requestedName requestLimit source,
    (Elf32DependencyProvider.resolveFor provider requesterIdentity requestedName requestLimit).1
      = .ok source →
    J (Elf32DependencyProvider.resolveFor provider requesterIdentity requestedName requestLimit).2
      requesterIdentity requestedName source
  kept : ∀ (provider : P) requesterIdentity requestedName requestLimit,
    J provider ≤ J (Elf32DependencyProvider.resolveFor provider requesterIdentity requestedName
      requestLimit).2

/-- The edges of the objects lead to objects with sources in `J`. -/
def Originates (J : ByteString → ByteString → Elf32DependencySource → Prop)
    (objects : List Elf32LoadedDependencyObject) : Prop :=
  ∀ object ∈ objects, ∀ edge ∈ object.dependencies, ∃ target,
    objects[edge.targetObject]? = some target
      ∧ J object.identity edge.requestedName target.source

/-- The requests were answered with sources in `J`. -/
def RequestsIn (J : ByteString → ByteString → Elf32DependencySource → Prop)
    (requests : List ProviderRequest) : Prop :=
  ∀ request ∈ requests, ∀ source, request.answer = .ok source →
    J request.requesterIdentity request.requestedName source

section Edges

variable {P : Type} {J J' : ByteString → ByteString → Elf32DependencySource → Prop}

lemma Originates.mono {objects : List Elf32LoadedDependencyObject} (h : Originates J objects)
    (hJ : J ≤ J') : Originates J' objects := by
  intro object hobject edge hedge
  obtain ⟨target, htarget, hsource⟩ := h object hobject edge hedge
  exact ⟨target, htarget, hJ _ _ _ hsource⟩

/-- **The edges of the objects that a run has added are the answers that it got.** -/
lemma Originates.grown {ctx ctx' : GraphLoadContext (Recorded P)} {m₀ : MappedGuestMemory}
    {old added : List Elf32LoadedDependencyObject} {first : ℕ} {work : List ℕ}
    (hold : Originates J old) (hobjects : ctx'.graph.objects = old ++ added)
    (hgrown : Grown ctx ctx' first work added) (hholds : ctx'.Holds m₀ [])
    (hrequests : RequestsIn J ctx'.provider.requests) : Originates J ctx'.graph.objects := by
  obtain ⟨requests, happended, hexchanges⟩ := hgrown.requests
  intro object hobject edge hedge
  have hlt := (hholds.graph.ok.edges object hobject edge hedge).2
  rw [hobjects, List.mem_append] at hobject
  rcases hobject with hmem | hmem
  · -- an edge between objects that were there
    obtain ⟨target, htarget, hJ⟩ := hold object hmem edge hedge
    have hindex : edge.targetObject < old.length := (List.getElem?_eq_some_iff.mp htarget).1
    exact ⟨target, by rw [hobjects, List.getElem?_append_left hindex, htarget], hJ⟩
  · refine ⟨ctx'.graph.objects[edge.targetObject], List.getElem?_eq_getElem hlt, ?_⟩
    have hexchange : (object.identity, edge.requestedName,
        Except.ok (ctx'.graph.objects[edge.targetObject]).source) ∈ requests.map (·.exchange) := by
      rw [hexchanges]
      refine List.mem_flatMap.mpr ⟨object, hmem, ?_⟩
      rw [exchanges, List.map_map]
      refine List.mem_map.mpr ⟨edge, hedge, ?_⟩
      simp [Elf32DependencyEdge.resolved, sources, hlt]
    obtain ⟨request, hrequest, heq⟩ := List.mem_map.mp hexchange
    obtain ⟨hrequester, hname, hanswer⟩ : request.requesterIdentity = object.identity
        ∧ request.requestedName = edge.requestedName
        ∧ request.answer = .ok (ctx'.graph.objects[edge.targetObject]).source := by
      simpa [ProviderRequest.exchange] using heq
    rw [← hrequester, ← hname]
    refine hrequests request ?_ _ hanswer
    rw [happended]
    exact List.mem_append_right _ hrequest

end Edges

/-! ### The calls -/

section Calls

variable {P : Type} [Elf32DependencyProvider P]
  {J : P → ByteString → ByteString → Elf32DependencySource → Prop} {provider : P}

/-- A provider with a record, since a state: the answers are in `J`, and so is what was in it. -/
def AnsweredSince (J : P → ByteString → ByteString → Elf32DependencySource → Prop) (provider : P)
    (recorded : Recorded P) : Prop :=
  RequestsIn (J recorded.provider) recorded.requests ∧ J provider ≤ J recorded.provider

omit [Elf32DependencyProvider P] in
lemma AnsweredSince.start : AnsweredSince J provider (Recorded.mk provider []) :=
  ⟨fun _ h => absurd h List.not_mem_nil, le_refl _⟩

/-- A request to the provider. -/
lemma Answers.counts (h : Answers P J) (provider : P) :
    Counts fun (recorded : Recorded P) (_ : ℕ) => AnsweredSince J provider recorded := by
  rintro recorded _ requesterIdentity requestedName requestLimit ⟨hrequests, hsince⟩
  have hkept := h.kept recorded.provider requesterIdentity requestedName requestLimit
  refine ⟨fun request hrequest source hanswer => ?_, hsince.trans hkept⟩
  rcases List.mem_append.mp hrequest with hbefore | hlast
  · exact hkept _ _ _ (hrequests request hbefore source hanswer)
  · rw [List.mem_singleton.mp hlast] at hanswer ⊢
    exact h.answered recorded.provider requesterIdentity requestedName requestLimit source hanswer

/-- **The edges of a loaded graph are the answers to its objects.** -/
lemma loadElf32DependencyGraph_originates (hJ : Answers P J) (memory : MappedGuestMemory)
    (root : Elf32DependencyLoadSource) (provider : P) (options : Elf32DependencyLoadOptions) :
    Originates (J (loadElf32DependencyGraph memory root provider options).2.2)
      (loadElf32DependencyGraph memory root provider options).1.graph.objects := by
  obtain ⟨_, -, hrequests, -⟩ := (loadElf32DependencyGraph_run memory root
    (Recorded.mk provider []) options).counted (hJ.counts provider) .start
  rw [loadElf32DependencyGraph_recorded, mapResult]
  cases hroot : checkRoot root options with
  | error failure =>
      rw [loadElf32DependencyGraph, hroot]
      exact fun _ hobject => absurd hobject List.not_mem_nil
  | ok _ =>
      rw [loadElf32DependencyGraph_of_ok hroot] at hrequests ⊢
      have hstart := rootContext_started memory (Recorded.mk provider []) hroot
      rcases hrun : processObject options (options.maxDepth.toNat + 1) 0 false
        (rootContext memory root (Recorded.mk provider [])) with ⟨failure | _, ctx⟩
      · exact fun _ hobject => absurd hobject List.not_mem_nil
      · have hentering : Entering (rootContext memory root (Recorded.mk provider [])) []
            { identity := root.identity, image := root.image } :=
          ⟨rfl, ⟨[], rfl, rfl, List.not_mem_nil⟩, rfl⟩
        obtain ⟨hholds, head, rest, hprocessed⟩ :=
          processObject_grown hstart.holds hentering hrun
        rw [hrun] at hrequests
        exact Originates.grown (fun _ hobject => absurd hobject List.not_mem_nil)
          hprocessed.objects hprocessed.grown hholds hrequests

/-- **An append adds edges that are answers to their objects.** -/
lemma appendElf32LinkMapRoot_originates (hJ : Answers P J) (memory : MappedGuestMemory)
    {linkMap : Elf32LinkMap} (h : Originates (J provider) linkMap.graph.objects)
    (root : Elf32DependencyLoadSource) (options : Elf32DependencyLoadOptions)
    (rootPolicy : Elf32LinkMapRootPolicy) :
    let appended := appendElf32LinkMapRoot memory linkMap root provider options rootPolicy
    Originates (J appended.2.2.2) appended.2.1.graph.objects := by
  intro appended
  have hrecorded := appendElf32LinkMapRoot_map recorded_hom memory linkMap root
    (Recorded.mk provider []) options rootPolicy
  change appended = _ at hrecorded
  rw [hrecorded]
  dsimp only
  obtain ⟨_, -, hrequests, hkept⟩ := (appendElf32LinkMapRoot_run memory linkMap root
    (Recorded.mk provider []) options rootPolicy).counted (hJ.counts provider) .start
  rcases appendElf32LinkMapRoot_processes memory linkMap root (Recorded.mk provider []) options
    rootPolicy with hsame | ⟨ctx, ctx', hholds, -, -, -, hentering, hrun, hgraph, hend⟩
  · rw [hsame]
    exact h.mono hkept
  · obtain ⟨hholds', head, rest, hprocessed⟩ := processObject_grown hholds.of_base hentering hrun
    rw [hend] at hrequests hkept ⊢
    rw [hgraph]
    exact (h.mono hkept).grown hprocessed.objects hprocessed.grown hholds' hrequests

end Calls

end LibA32Android
