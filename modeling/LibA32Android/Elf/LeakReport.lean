/-
Which mapping leaks a failing graph load reports.

A load whose host calls are refused unmaps what it has mapped, and does not look at
the outcome; the graph then rolls back the loads before it, and reports when that
fails.  So a page that the first rollback leaves is reported only if the second one
leaves a page too.

* `RefusedAt`, `loadSegments_calls`: the host calls of a load, and how it goes when
  one of them is refused;
* `Leaks`, `LeakyLoad`: the host's answers from a load on that make a silent leak;
* `rollback_after_undo`: the pages that both rollbacks leave;
* `mapping_leak_reported_iff`: a call leaves no page unreported exactly when it
  makes no such load.
-/
import LibA32Android.Elf.GraphCalls
import LibA32Android.Memory.HostCalls

namespace LibA32Android

open Foundations MappedGuestMemory

/-! ### The host calls of a load -/

/-- The `i`-th host call of a load of `count` segments: all are mapped, then all get
their permissions. -/
def loadCall (count i : ℕ) : HostCall := if i < count then .mapMprotect else .protectMprotect

/-- The host refuses call `k` of such a load, after it has granted those before. -/
structure RefusedAt (m : MappedGuestMemory) (count k : ℕ) : Prop where
  lt : k < 2 * count
  granted : ∀ i < k, m.host (m.hostCalls + i) (loadCall count i) = true
  refused : m.host (m.hostCalls + k) (loadCall count k) = false

lemma RefusedAt.unique {m : MappedGuestMemory} {count k k' : ℕ} (h : RefusedAt m count k)
    (h' : RefusedAt m count k') : k = k' := by
  rcases lt_trichotomy k k' with hlt | heq | hlt
  · exact absurd (h'.granted k hlt) (by simp [h.refused])
  · exact heq
  · exact absurd (h.granted k' hlt) (by simp [h'.refused])

namespace MappedGuestMemory

variable {m m' m₀ m₁ : MappedGuestMemory} {image : List UInt8} {planned : PlannedSegment}
  {segments done : List PlannedSegment}

lemma mapSegment_report (s : List MappedRange × MappedGuestMemory) (planned : PlannedSegment) :
    (mapSegment s planned).1
        = (s.2.map planned.mappingStart planned.mappingSize (.read ||| .write)).1
      ∧ (mapSegment s planned).2.2
        = (s.2.map planned.mappingStart planned.mappingSize (.read ||| .write)).2 := by
  rw [mapSegment]
  split
  · rename_i heq
    simp [heq]
  · rename_i heq
    simp [heq]

/-- The first pass with its host calls. -/
structure MapCalls (m₀ : MappedGuestMemory) (done : List PlannedSegment)
    (s : List MappedRange × MappedGuestMemory) : Prop extends MapPass m₀ done s where
  hostCalls : s.2.hostCalls = m₀.hostCalls + done.length
  granted : ∀ i < done.length, m₀.host (m₀.hostCalls + i) .mapMprotect = true

/-- A pass that stops at the refused call `k`, with `mapped` ranges to give back. -/
structure StoppedAt (m₀ : MappedGuestMemory) (count k : ℕ) (mapped : List MappedRange)
    (m : MappedGuestMemory) : Prop where
  refused : RefusedAt m₀ count k
  acquired : Acquired m₀ mapped m
  mapped : mapped.length = min k count
  hostCalls : m.hostCalls = m₀.hostCalls + k + 1

section Calls

variable (hall : ∀ planned ∈ segments, PlannedOk m₀.pageSize image planned)
  (hfree : ∀ page ∈ m₀.rangePages (segments.map (·.range)), ¬m₀.Mapped page)
  (hdisjoint : (segments.map (·.range)).Pairwise fun r r' =>
    Disjoint (m₀.pages r.start r.length) (m₀.pages r'.start r'.length))

include hall hfree hdisjoint

/-- **The first pass** fails exactly at a refused call. -/
lemma mapPass_calls :
    (∀ s, stepAll mapSegment segments ([], m₀) = (true, s) → MapCalls m₀ segments s)
      ∧ ∀ s, stepAll mapSegment segments ([], m₀) = (false, s) →
          ∃ k, StoppedAt m₀ segments.length k s.1 s.2 := by
  -- each step makes the next host call, and its answer decides
  have hanswer : ∀ done planned rest s, segments = done ++ planned :: rest →
      MapCalls m₀ done s → (mapSegment s planned).1
          = m₀.host (m₀.hostCalls + done.length) .mapMprotect
        ∧ (mapSegment s planned).2.2.hostCalls = m₀.hostCalls + done.length + 1 := by
    intro done planned rest s hl h
    obtain ⟨hreport, hmemory⟩ := mapSegment_report s planned
    have hrange := h.frame.isPageRange (hall planned (by simp [hl])).isPageRange
    have hperm : validPermissions (.read ||| .write) = true := by decide
    have hmap := map_answer hrange hperm (h.next_free hl hfree hdisjoint)
    rw [h.frame.host, h.hostCalls] at hmap
    exact ⟨hreport.trans hmap.1, hmemory ▸ hmap.2⟩
  refine stepAll_induction (MapCalls m₀) (fun s => ∃ k, StoppedAt m₀ segments.length k s.1 s.2)
    ?_ ?_ ?_
  · intro done planned rest s s' hl h hstep
    obtain ⟨hhost, hcalls⟩ := hanswer done planned rest s hl h
    rw [hstep] at hhost hcalls
    refine ⟨h.toMapPass.step (hall planned (by simp [hl])) hstep, ?_, fun i hi => ?_⟩
    · rw [List.length_append, List.length_singleton, ← Nat.add_assoc]
      exact hcalls
    · rw [List.length_append, List.length_singleton] at hi
      rcases Nat.lt_succ_iff_lt_or_eq.mp hi with hlt | rfl
      · exact h.granted i hlt
      · exact hhost.symm
  · intro done planned rest s s' hl h hstep
    obtain ⟨hhost, hcalls⟩ := hanswer done planned rest s hl h
    rw [hstep] at hhost hcalls
    obtain ⟨hranges, hframe⟩ := mapSegment_eq_false hstep
    have hlt : done.length < segments.length := by simp [hl]
    refine ⟨done.length, ⟨by omega, fun i hi => ?_, ?_⟩, ?_, ?_, hcalls⟩
    · rw [loadCall, if_pos (hi.trans hlt)]
      exact h.granted i hi
    · rw [loadCall, if_pos hlt]
      exact hhost.symm
    · rw [hranges]
      exact h.acquired.keep_of_unchanged hframe
    · rw [hranges, h.ranges, List.length_map, Nat.min_eq_left hlt.le]
  · exact ⟨⟨rfl, .nil m₀, .refl _ _, fun page hp => by simp [mem_rangePages] at hp, rfl⟩, rfl,
      fun _ hi => absurd hi (Nat.not_lt_zero _)⟩

end Calls

/-- The third pass with its host calls. -/
structure ProtectCalls (m₀ : MappedGuestMemory) (segments : List PlannedSegment)
    (m₁ : MappedGuestMemory) (done : List PlannedSegment) (m : MappedGuestMemory) : Prop
    extends ProtectPass m₀ segments m₁ done m where
  hostCalls : m.hostCalls = m₁.hostCalls + done.length
  granted : ∀ i < done.length, m₁.host (m₁.hostCalls + i) .protectMprotect = true

/-- **The third pass** fails exactly at a refused call. -/
lemma protectPass_calls (h : Acquired m₀ (segments.map (·.range)) m₁)
    (hall : ∀ planned ∈ segments, PlannedOk m₀.pageSize image planned) :
    (∀ m, stepAll protectSegment segments m₁ = (true, m) →
        ProtectCalls m₀ segments m₁ segments m)
      ∧ ∀ m, stepAll protectSegment segments m₁ = (false, m) →
          ∃ j < segments.length, Acquired m₀ (segments.map (·.range)) m
            ∧ (∀ i < j, m₁.host (m₁.hostCalls + i) .protectMprotect = true)
            ∧ m₁.host (m₁.hostCalls + j) .protectMprotect = false
            ∧ m.hostCalls = m₁.hostCalls + j + 1 := by
  have hanswer : ∀ done planned rest m, segments = done ++ planned :: rest →
      ProtectCalls m₀ segments m₁ done m → (protectSegment m planned).1
          = m₁.host (m₁.hostCalls + done.length) .protectMprotect
        ∧ (protectSegment m planned).2.hostCalls = m₁.hostCalls + done.length + 1 := by
    intro done planned rest m hl hpass
    have hok := hall planned (by simp [hl])
    have hrange := hpass.acquired.frame.isPageRange.mpr hok.isPageRange
    have hprotect := protect_answer hrange hok.permissions (hpass.next_mapped hl)
    rwa [hpass.frame.host, hpass.hostCalls] at hprotect
  refine stepAll_induction (ProtectCalls m₀ segments m₁) _ ?_ ?_ ?_
  · intro done planned rest m m' hl hpass hstep
    obtain ⟨hhost, hcalls⟩ := hanswer done planned rest m hl hpass
    rw [hstep] at hhost hcalls
    refine ⟨hpass.toProtectPass.step hl hstep, ?_, fun i hi => ?_⟩
    · rw [List.length_append, List.length_singleton, ← Nat.add_assoc]
      exact hcalls
    · rw [List.length_append, List.length_singleton] at hi
      rcases Nat.lt_succ_iff_lt_or_eq.mp hi with hlt | rfl
      · exact hpass.granted i hlt
      · exact hhost.symm
  · intro done planned rest m m' hl hpass hstep
    obtain ⟨hhost, hcalls⟩ := hanswer done planned rest m hl hpass
    rw [hstep] at hhost hcalls
    exact ⟨done.length, by simp [hl], hpass.acquired.keep_of_unchanged (protect_failed hstep),
      hpass.granted, hhost.symm, hcalls⟩
  · exact ⟨⟨h, .refl _ _, fun _ hq => absurd hq List.not_mem_nil, rfl⟩, rfl,
      fun _ hi => absurd hi (Nat.not_lt_zero _)⟩

/-- **The passes fail exactly at a refused host call**, and then undo what is mapped. -/
lemma loadSegments_calls (hall : ∀ planned ∈ segments, PlannedOk m₀.pageSize image planned)
    (hfree : ∀ page ∈ m₀.rangePages (segments.map (·.range)), ¬m₀.Mapped page)
    (hdisjoint : (segments.map (·.range)).Pairwise fun r r' =>
      Disjoint (m₀.pages r.start r.length) (m₀.pages r'.start r'.length)) :
    (∃ m, m₀.loadSegments image segments = (.ok (), m)
        ∧ ∀ k, ¬RefusedAt m₀ segments.length k)
      ∨ ∃ e k mapped m, m₀.loadSegments image segments = (.error e, (unmapAll mapped m).2)
          ∧ StoppedAt m₀ segments.length k mapped m := by
  obtain ⟨hmapOk, hmapFail⟩ := mapPass_calls hall hfree hdisjoint
  rw [loadSegments]
  rcases hmap : stepAll mapSegment segments ([], m₀) with ⟨_ | _, s⟩
  · obtain ⟨k, hstop⟩ := hmapFail s hmap
    exact .inr ⟨_, k, s.1, s.2, rfl, hstop⟩
  have hpass := hmapOk s hmap
  obtain ⟨hinit, hacquired, hframe⟩ := hpass.initialized hall
  obtain ⟨hprotOk, hprotFail⟩ := protectPass_calls hacquired hall
  -- the second pass makes no host call
  have hcalls : (initialized image segments s.2).hostCalls = m₀.hostCalls + segments.length :=
    hpass.hostCalls
  rw [hframe.host, hcalls] at hprotFail
  simp only [hinit]
  have hfirst : ∀ i < segments.length,
      m₀.host (m₀.hostCalls + i) (loadCall segments.length i) = true := by
    intro i hi
    rw [loadCall, if_pos hi]
    exact hpass.granted i hi
  rcases hprot : stepAll protectSegment segments (initialized image segments s.2) with ⟨_ | _, m⟩
  · obtain ⟨j, hj, hacquired', hbefore, hrefused, hnext⟩ := hprotFail m hprot
    refine .inr ⟨_, segments.length + j, s.1, m, rfl, ⟨by omega, fun i hi => ?_, ?_⟩, ?_, ?_, ?_⟩
    · by_cases hlt : i < segments.length
      · exact hfirst i hlt
      · have := hbefore (i - segments.length) (by omega)
        rw [loadCall, if_neg hlt]
        rwa [show m₀.hostCalls + segments.length + (i - segments.length) = m₀.hostCalls + i by
          omega] at this
    · rw [loadCall, if_neg (by omega), ← Nat.add_assoc]
      exact hrefused
    · rw [hpass.ranges]
      exact hacquired'
    · rw [hpass.ranges, List.length_map, Nat.min_eq_right (Nat.le_add_right _ _)]
    · rw [hnext, ← Nat.add_assoc]
  · have hlast := hprotOk m hprot
    refine .inl ⟨m, rfl, fun k hrefused => ?_⟩
    have hk := hrefused.lt
    by_cases hlt : k < segments.length
    · exact absurd (hfirst k hlt) (by simp [hrefused.refused])
    · have hgranted := hlast.granted (k - segments.length) (by omega)
      have hkth := hrefused.refused
      rw [loadCall, if_neg hlt] at hkth
      rw [hframe.host, hcalls,
        show m₀.hostCalls + segments.length + (k - segments.length) = m₀.hostCalls + k by omega,
        hkth] at hgranted
      cases hgranted

end MappedGuestMemory

/-! ### Leaks -/

/-- The host's answers from a load of `count` segments on make a silent leak: the load
is refused, its undo leaves a page, and the rollback of the `owned` ranges of the
loads before it goes through. -/
def Leaks (m : MappedGuestMemory) (count owned : ℕ) : Prop :=
  ∃ k, RefusedAt m count k
    ∧ unmapsGranted m.host (m.hostCalls + k + 1) (min k count) = false
    ∧ unmapsGranted m.host (afterUnmaps m.host (m.hostCalls + k + 1) (min k count)) owned = true

/-- The segments that a load of the object maps, if it gets so far. -/
def plannedLoad (memory : MappedGuestMemory) (object : Elf32LoadedDependencyObject)
    (options : Elf32DependencyLoadOptions) (requireDynamic : Bool) :
    Option (List PlannedSegment) :=
  match planElf32Load memory.pageSize object.image with
  | .error _ => none
  | .ok plan =>
    if requireDynamic ∧ plan.type ≠ .dynamic then none
    else
      match placeObject memory object options plan with
      | .error _ => none
      | .ok loadOptions =>
        match prepareElf32Load memory object.image loadOptions with
        | .error _ => none
        | .ok biased => some biased.plannedSegments

/-- The three ways of a load: refused before it maps anything, done, or undone. -/
inductive LoadEnd (m : MappedGuestMemory) :
    Option (List PlannedSegment) →
      Except Elf32DependencyLoadFailure Elf32LoadResult × MappedGuestMemory → Prop
  | refused (failure : Elf32DependencyLoadFailure) (herror : failure.error ≠ .rollbackFailed) :
      LoadEnd m none (.error failure, m)
  | done (segments : List PlannedSegment) (load : Elf32LoadResult) (m' : MappedGuestMemory)
      (hgranted : ∀ k, ¬RefusedAt m segments.length k) :
      LoadEnd m (some segments) (.ok load, m')
  | undone (segments : List PlannedSegment) (failure : Elf32DependencyLoadFailure)
      (herror : failure.error ≠ .rollbackFailed) (k : ℕ) (mapped : List MappedRange)
      (m₁ : MappedGuestMemory) (hstopped : StoppedAt m segments.length k mapped m₁) :
      LoadEnd m (some segments) (.error failure, (unmapAll mapped m₁).2)

lemma loadObject_end (m : MappedGuestMemory) (object : Elf32LoadedDependencyObject)
    (options : Elf32DependencyLoadOptions) (requireDynamic : Bool) :
    LoadEnd m (plannedLoad m object options requireDynamic)
      (loadObject m object options requireDynamic) := by
  rw [plannedLoad, loadObject]
  cases hplan : planElf32Load m.pageSize object.image with
  | error e => exact .refused _ (by simp [loadFailure])
  | ok plan =>
      simp only
      split
      · exact .refused _ (by simp [loadFailure])
      cases hplace : placeObject m object options plan with
      | error failure =>
          exact .refused _ (by simp [placeObject_error hplace])
      | ok loadOptions =>
          simp only [loadElf32]
          cases hprep : prepareElf32Load m object.image loadOptions with
          | error e => exact .refused _ (by simp [loadFailure])
          | ok biased =>
              obtain ⟨_, hprepared⟩ := prepareElf32Load_ok hprep
              rcases loadSegments_calls hprepared.allOk (prepareElf32Load_free hprep)
                  hprepared.ranges_disjoint with
                ⟨m', hrun, hgranted⟩ | ⟨e, k, mapped, m₁, hrun, hstopped⟩
              · simp only [hrun]
                exact .done _ _ _ hgranted
              · simp only [hrun]
                exact .undone _ _ (by simp [loadFailure]) k mapped m₁ hstopped

/-! ### Two rollbacks -/

section Rollback

variable {m m₀ m₁ : MappedGuestMemory} {owned mapped : List MappedRange}

/-- The pages of a load that is given back are none of those owned before it. -/
lemma acquired_apart (howned : Acquired m₀ owned m) (hmapped : Acquired m mapped m₁) :
    ∀ page ∈ m.rangePages mapped, page ∉ m.rangePages owned := fun page hp hp' =>
  hmapped.free page hp (howned.owns.mapped page hp')

/-- **A page is left by the two rollbacks exactly when one of them fails.** -/
lemma rollback_after_undo (howned : Acquired m₀ owned m) (hmapped : Acquired m mapped m₁) :
    (unmapAll owned (unmapAll mapped m₁).2).1
        = unmapsGranted m.host (afterUnmaps m.host m₁.hostCalls mapped.length) owned.length
      ∧ ((∃ page, ¬m₀.Mapped page ∧ (unmapAll owned (unmapAll mapped m₁).2).2.Mapped page)
        ↔ unmapsGranted m.host m₁.hostCalls mapped.length = false
          ∨ (unmapAll owned (unmapAll mapped m₁).2).1 = false) := by
  obtain ⟨hreport, hcalls, hsize, hhost, hothers, hleft⟩ := hmapped.owns.unmapAll
  have hapart := acquired_apart howned hmapped
  have hsize₁ := hmapped.frame.pageSize
  rw [hmapped.frame.host] at hreport hcalls hhost
  rw [rangePages_congr hsize₁] at hothers hleft
  generalize unmapAll mapped m₁ = undone at hreport hcalls hsize hhost hothers hleft ⊢
  -- the owned ranges are as they were before the failing load
  have howned₁ : Owns undone.2 owned := by
    have hsize₂ : undone.2.pageSize = m.pageSize := hsize.trans hsize₁
    refine ⟨fun r hr => isPageRange_congr hsize₂ (howned.owns.isRange r hr),
      by simpa only [pages_congr hsize₂] using howned.owns.disjoint, fun page hp => ?_⟩
    rw [rangePages_congr hsize₂] at hp
    have hnot : page ∉ m.rangePages mapped := fun hp' => hapart page hp' hp
    rw [Mapped, hothers page hnot]
    exact (hmapped.frame.mapped page hnot).mpr (howned.owns.mapped page hp)
  obtain ⟨hreport', -, -, -, hothers', hleft'⟩ := howned₁.unmapAll
  rw [rangePages_congr (hsize.trans hsize₁)] at hothers' hleft'
  rw [hhost, hcalls] at hreport'
  refine ⟨hreport', ?_⟩
  rw [← hreport, hleft, hleft']
  generalize unmapAll owned undone.2 = final at hothers' ⊢
  have hsame : ∀ page ∉ m.rangePages owned, (final.2.Mapped page ↔ undone.2.Mapped page) :=
    fun page hp => by rw [Mapped, Mapped, hothers' page hp]
  have hframe : ∀ page ∉ m.rangePages owned, (m.Mapped page ↔ m₀.Mapped page) := fun page hp =>
    howned.frame.mapped page (rangePages_congr howned.frame.pageSize owned ▸ hp)
  constructor
  · rintro ⟨page, hfree, hm⟩
    by_cases hp : page ∈ m.rangePages owned
    · exact .inr ⟨page, hp, hm⟩
    rw [hsame page hp] at hm
    by_cases hp' : page ∈ m.rangePages mapped
    · exact .inl ⟨page, hp', hm⟩
    · rw [Mapped, hothers page hp'] at hm
      exact absurd ((hframe page hp).mp ((hmapped.frame.mapped page hp').mp hm)) hfree
  · rintro (⟨page, hp, hm⟩ | ⟨page, hp, hm⟩)
    · have hnot := hapart page hp
      exact ⟨page, fun h₀ => hmapped.free page hp ((hframe page hnot).mpr h₀),
        (hsame page hnot).mpr hm⟩
    · refine ⟨page, howned.free page ?_, hm⟩
      rwa [rangePages_congr howned.frame.pageSize] at hp

/-- The same with nothing to undo. -/
lemma rollback_owned (howned : Acquired m₀ owned m) :
    (∃ page, ¬m₀.Mapped page ∧ (unmapAll owned m).2.Mapped page)
      ↔ (unmapAll owned m).1 = false := by
  have h := (rollback_after_undo howned (.nil m)).2
  simpa [unmapAll, unmapsGranted] using h

end Rollback

/-! ### Reports -/

/-- A call that fails and leaves a page mapped that was not mapped before reports
`RollbackFailed`. -/
def LeakReported (memory : MappedGuestMemory) (result : Elf32DependencyLoadResult)
    (memory' : MappedGuestMemory) : Prop :=
  ∀ failure, result.failure = some failure →
    (∃ page, ¬memory.Mapped page ∧ memory'.Mapped page) → failure.error = .rollbackFailed

/-- A load of a run whose failure leaves a page and is not reported. -/
def LeakyLoad {P : Type} (options : Elf32DependencyLoadOptions) (moment : GraphMoment P) : Prop :=
  ∃ requireDynamic segments, moment.stage = .load requireDynamic
    ∧ plannedLoad moment.ctx.memory (moment.ctx.object moment.index) options requireDynamic
        = some segments
    ∧ Leaks moment.ctx.memory segments.length (loadedRanges moment.ctx.successfulLoads).length

lemma leakReported_rollback_iff {m₀ m : MappedGuestMemory} {loads : List Elf32LoadResult}
    {failure : Elf32DependencyLoadFailure} (hsize : ∀ r ∈ loadedRanges loads, r.length ≤ 2 ^ 32)
    (herror : failure.error ≠ .rollbackFailed) :
    LeakReported m₀ (rollbackFailure m loads failure).1 (rollbackFailure m loads failure).2
      ↔ ((∃ page, ¬m₀.Mapped page ∧ (unmapAll (loadedRanges loads) m).2.Mapped page) →
          (unmapAll (loadedRanges loads) m).1 = false) := by
  rw [rollbackFailure, rollbackLoads_eq_unmapAll hsize]
  cases hreport : (unmapAll (loadedRanges loads) m).1 with
  | true => simp [LeakReported, herror]
  | false => simp [LeakReported]

namespace GraphLoadContext

variable {P : Type} {m₀ : MappedGuestMemory} {base : List Elf32LoadedDependencyObject}
  {ctx ctx' : GraphLoadContext P} {options : Elf32DependencyLoadOptions}
  {failure failure' : Elf32DependencyLoadFailure}

lemma Holds.range_le (h : ctx.Holds m₀ base) :
    ∀ r ∈ loadedRanges ctx.successfulLoads, r.length ≤ 2 ^ 32 := fun r hr =>
  le_of_add_le_right (h.acquired.isRange r hr).end_le

/-- Without a failing load the rollback reports what it leaves. -/
lemma Holds.leakReported (h : ctx.Holds m₀ base) (herror : failure.error ≠ .rollbackFailed) :
    LeakReported m₀ (rollbackFailure ctx.memory ctx.successfulLoads failure).1
      (rollbackFailure ctx.memory ctx.successfulLoads failure).2 :=
  (leakReported_rollback_iff h.range_le herror).mpr (rollback_owned h.acquired).mp

/-- A load that succeeds is not leaky. -/
lemma loadAt_ok_not_leaky {moment : GraphMoment P} {requireDynamic : Bool}
    (hstage : moment.stage = .load requireDynamic)
    (hload : moment.ctx.loadAt options moment.index requireDynamic = (.ok (), ctx')) :
    ¬LeakyLoad options moment := by
  rintro ⟨requireDynamic', segments, hstage', hplanned, k, hrefused, -⟩
  cases hstage.symm.trans hstage'
  have hend := loadObject_end moment.ctx.memory (moment.ctx.object moment.index) options
    requireDynamic
  rw [GraphLoadContext.loadAt] at hload
  split at hload
  · cases hload
  rename_i load memory heq
  rw [heq, hplanned] at hend
  cases hend with
  | done _ _ _ hgranted => exact hgranted k hrefused

/-- **A failing load ends in a reported leak exactly when it is not leaky.** -/
lemma loadAt_error_leakReported_iff {moment : GraphMoment P} {requireDynamic : Bool}
    (h : moment.ctx.Holds m₀ base) (hstage : moment.stage = .load requireDynamic)
    (hload : moment.ctx.loadAt options moment.index requireDynamic = (.error failure, ctx'))
    (herror : failure'.error = failure.error) :
    LeakReported m₀ (rollbackFailure ctx'.memory ctx'.successfulLoads failure').1
        (rollbackFailure ctx'.memory ctx'.successfulLoads failure').2
      ↔ ¬LeakyLoad options moment := by
  have hend := loadObject_end moment.ctx.memory (moment.ctx.object moment.index) options
    requireDynamic
  have hleaky : LeakyLoad options moment
      ↔ ∃ segments, plannedLoad moment.ctx.memory (moment.ctx.object moment.index) options
          requireDynamic = some segments
        ∧ Leaks moment.ctx.memory segments.length
            (loadedRanges moment.ctx.successfulLoads).length := by
    constructor
    · rintro ⟨requireDynamic', segments, hstage', hrest⟩
      cases hstage.symm.trans hstage'
      exact ⟨segments, hrest⟩
    · rintro ⟨segments, hrest⟩
      exact ⟨requireDynamic, segments, hstage, hrest⟩
  rw [hleaky]
  rw [GraphLoadContext.loadAt] at hload
  split at hload
  · rename_i failure memory heq
    cases hload
    rw [heq] at hend
    generalize hplanned : plannedLoad moment.ctx.memory (moment.ctx.object moment.index) options
      requireDynamic = planned at hend ⊢
    cases hend with
    | refused _ hrefused =>
        refine iff_of_true (h.leakReported (herror ▸ hrefused)) ?_
        rintro ⟨segments, hsegments, -⟩
        cases hsegments
    | undone segments _ hundone k mapped m₁ hstopped =>
        obtain ⟨hrefused, hacquired, hmapped, hcalls⟩ := hstopped
        rw [leakReported_rollback_iff h.range_le (herror ▸ hundone)]
        obtain ⟨hreport, hleft⟩ := rollback_after_undo h.acquired hacquired
        rw [hcalls, hmapped] at hreport hleft
        rw [hleft, hreport]
        constructor
        · rintro hreported ⟨_, hsegments, k', hrefused', hundo, hback⟩
          cases hsegments
          cases hrefused.unique hrefused'
          exact absurd (hreported (.inl hundo)) (by simp [hback])
        · rintro hnot (hundo | hback)
          · rw [← Bool.not_eq_true]
            exact fun hback => hnot ⟨segments, rfl, k, hrefused, hundo, hback⟩
          · exact hback
  · cases hload

/-- **A run leaves no page unreported exactly when it makes no leaky load.** -/
theorem processObject_leakReported_iff [Elf32DependencyProvider P] (h : ctx.Holds m₀ base)
    (levels depth index : ℕ) (requireDynamic : Bool) :
    (∀ failure ctx', processObject options levels index requireDynamic ctx
          = (.error failure, ctx') →
        LeakReported m₀ (rollbackFailure ctx'.memory ctx'.successfulLoads failure).1
          (rollbackFailure ctx'.memory ctx'.successfulLoads failure).2)
      ↔ ∀ moment ∈ processMoments options levels depth index requireDynamic ctx,
          ¬LeakyLoad options moment := by
  have hrun := processObject_rule (holds_rule options m₀ base) levels depth index requireDynamic h
  constructor
  · intro hreported moment hm hleaky
    obtain ⟨requireDynamic', -, hstage, -⟩ := id hleaky
    have hends := processObject_loadsOrEnds levels depth index requireDynamic ctx moment hm
      requireDynamic' hstage
    rcases hload : moment.ctx.loadAt options moment.index requireDynamic' with ⟨failure | _, ctx'⟩
    · rw [hload] at hends
      obtain ⟨failure', hend, herror⟩ := hends
      exact (loadAt_error_leakReported_iff (hrun.moments moment hm) hstage hload herror).mp
        (hreported failure' ctx' hend) hleaky
    · exact loadAt_ok_not_leaky hstage hload hleaky
  · intro hnone failure ctx' hend
    have hleaves := hrun.leaves
    rw [hend] at hleaves
    rcases hleaves with hstopped | ⟨moment, hm, requireDynamic', failure', hstage, hload, herror⟩
    · exact hstopped.holds.leakReported hstopped.error.2
    · exact (loadAt_error_leakReported_iff (hrun.moments moment hm) hstage hload herror).mpr
        (hnone moment hm)

end GraphLoadContext

/-! ### The calls -/

section Calls

variable {P : Type} [Elf32DependencyProvider P]

lemma CallRun.leakReported_iff {options : Elf32DependencyLoadOptions}
    {memory memory' : MappedGuestMemory} {provider provider' : P}
    {base objects : List Elf32LoadedDependencyObject} {start : Option (GraphLoadContext P)}
    {result : Elf32DependencyLoadResult}
    (h : CallRun options memory provider base start result objects memory' provider') :
    LeakReported memory result memory'
      ↔ ∀ moment ∈ callMoments options base.length start, ¬LeakyLoad options moment := by
  cases h with
  | idle =>
      refine iff_of_true ?_ fun _ hm => absurd hm List.not_mem_nil
      rintro failure - ⟨page, hfree, hm⟩
      exact absurd hm hfree
  | failed ctx₀ hstart failure ctx hrun =>
      rw [callMoments, Option.elim_some,
        ← GraphLoadContext.processObject_leakReported_iff hstart.holds]
      constructor
      · intro hreported failure' ctx' hrun'
        cases hrun.symm.trans hrun'
        exact hreported
      · exact fun hreported => hreported failure ctx hrun
  | loaded ctx₀ hstart ctx hrun _ hresult =>
      rw [callMoments, Option.elim_some,
        ← GraphLoadContext.processObject_leakReported_iff hstart.holds]
      refine iff_of_true (fun failure hfailure => ?_) fun failure ctx' hrun' => ?_
      · rw [hresult] at hfailure
        cases hfailure
      · cases hrun.symm.trans hrun'

/-- **Mapping leaks are reported exactly when no load is leaky**: a call of either
entry point that fails and leaves a page mapped reports `RollbackFailed`, unless at
one of its loads the host refuses a map or protect call and an unmap of the load's
own undo, and then grants the rollback of the other loads. -/
theorem mapping_leak_reported_iff (memory : MappedGuestMemory) (root : Elf32DependencyLoadSource)
    (provider : P) (options : Elf32DependencyLoadOptions) :
    (LeakReported memory (loadElf32DependencyGraph memory root provider options).1
        (loadElf32DependencyGraph memory root provider options).2.1
      ↔ ∀ moment ∈ callMoments options 0 (graphStart memory root provider options),
          ¬LeakyLoad options moment)
    ∧ ∀ (linkMap : Elf32LinkMap) (rootPolicy : Elf32LinkMapRootPolicy),
      (LeakReported memory
          (appendElf32LinkMapRoot memory linkMap root provider options rootPolicy).1
          (appendElf32LinkMapRoot memory linkMap root provider options rootPolicy).2.2.1
        ↔ ∀ moment ∈ callMoments options linkMap.graph.objects.length
              (appendStart memory linkMap root provider options), ¬LeakyLoad options moment) :=
  ⟨(loadElf32DependencyGraph_run memory root provider options).leakReported_iff,
    fun linkMap rootPolicy =>
      (appendElf32LinkMapRoot_run memory linkMap root provider options rootPolicy).leakReported_iff⟩

/-- An empty memory whose host grants one call and refuses all that follow. -/
def failingMemory : MappedGuestMemory := .create 4096 (fun n _ => n == 0) fourKiB_dvd

/-- The one segment is mapped, its permissions are refused and so is the unmap: both
calls report `LoadFailed`, and page 16 stays mapped. -/
theorem silent_leak :
    ¬failingMemory.Mapped 16
      ∧ (loadElf32DependencyGraph failingMemory ⟨[97], tinyImage⟩ (SourceTable.mk [])
          wideOptions).1.failure.map (·.error) = some .loadFailed
      ∧ (loadElf32DependencyGraph failingMemory ⟨[97], tinyImage⟩ (SourceTable.mk [])
          wideOptions).2.1.Mapped 16
      ∧ (appendElf32LinkMapRoot failingMemory {} ⟨[97], tinyImage⟩ (SourceTable.mk [])
          wideOptions .global).1.failure.map (·.error) = some .loadFailed
      ∧ (appendElf32LinkMapRoot failingMemory {} ⟨[97], tinyImage⟩ (SourceTable.mk [])
          wideOptions .global).2.2.1.Mapped 16 := by
  decide +kernel

end Calls

end LibA32Android
