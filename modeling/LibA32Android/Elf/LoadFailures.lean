/-
How a load can fail.

* `PassError`: the errors of the passes over the memory;
* `planElf32Load_settled`: the planner reports none of them;
* `biasPlan_settled`: an accepted plan is biased unless the base or the entry point is at
  fault, since the bias keeps the extent of the whole plan inside the address space;
* `load_failures`: with a host that never fails no pass fails, and after a successful
  plan only five errors are left.
-/
import LibA32Android.Elf.DynamicPlacement

namespace LibA32Android

open Foundations

/-! ### The planner -/

/-- The errors of the passes over the memory. -/
def Elf32LoadError.PassError (e : Elf32LoadError) : Prop :=
  e = .mapFailed ∨ e = .writeFailed ∨ e = .protectFailed

instance (e : Elf32LoadError) : Decidable e.PassError :=
  inferInstanceAs (Decidable (_ ∨ _))

section Planner

variable {pageSize : ℕ} {image : List UInt8} {plan : Elf32LoadPlan} {header : ProgramHeader}

lemma planDynamicHeader_settled :
    Settled (¬·.PassError) (planDynamicHeader image plan header) := by
  refine .refuse_bind (fun _ => by decide) fun _ => .refuse_bind (fun _ => by decide) fun _ =>
    .refuse_bind (fun _ => by decide) fun _ => .refuse_bind (fun _ => by decide) fun _ =>
    .refuse_bind (fun _ => by decide) fun _ => settled_ok _

lemma planRelroHeader_settled :
    Settled (¬·.PassError) (planRelroHeader pageSize plan header) := by
  refine .refuse_bind (fun _ => by decide) fun _ => .refuse_bind (fun _ => by decide) fun _ => ?_
  split
  · exact settled_error.mpr (by decide)
  · exact settled_ok _

lemma planLoadHeader_settled :
    Settled (¬·.PassError) (planLoadHeader pageSize image plan header) := by
  refine .refuse_bind (fun _ => by decide) fun _ => .refuse_bind (fun _ => by decide) fun _ =>
    .refuse_bind (fun _ => by decide) fun _ => .refuse_bind (fun _ => by decide) fun _ => ?_
  split
  · exact settled_error.mpr (by decide)
  dsimp only
  split
  · split
    · exact settled_error.mpr (by decide)
    · exact settled_ok _
  · exact settled_ok _

lemma planProgramHeader_settled :
    Settled (¬·.PassError) (planProgramHeader pageSize image plan header) := by
  rw [planProgramHeader]
  split
  · exact planDynamicHeader_settled
  split
  · exact planRelroHeader_settled
  split
  · exact planLoadHeader_settled
  · exact settled_ok _

lemma checkElfHeader_settled : Settled (¬·.PassError) (checkElfHeader image) := by
  refine .refuse_bind (fun _ => by decide) fun _ => .refuse_bind (fun _ => by decide) fun _ =>
    .refuse_bind (fun _ => by decide) fun _ => .refuse_bind (fun _ => by decide) fun _ =>
    .refuse_bind (fun _ => by decide) fun _ => .refuse_bind (fun _ => by decide) fun _ =>
    .refuse_bind (fun _ => by decide) fun _ => .refuse_bind (fun _ => by decide) fun _ =>
    .refuse_bind (fun _ => by decide) fun _ => .refuse_bind (fun _ => by decide) fun _ =>
    settled_refuse fun _ => by decide

lemma checkDynamicSegment_settled : Settled (¬·.PassError) (checkDynamicSegment plan) := by
  rw [checkDynamicSegment]
  split
  · exact settled_ok _
  refine .refuse_bind (fun _ => by decide) fun _ => ?_
  split
  · exact settled_error.mpr (by decide)
  split
  · exact settled_refuse fun _ => by decide
  · exact settled_ok _

lemma checkRelroPage_settled (page : ℕ) :
    Settled (¬·.PassError) (checkRelroPage pageSize plan page) := by
  rw [checkRelroPage]
  split
  · exact settled_error.mpr (by decide)
  · exact settled_refuse fun _ => by decide

/-- The planner reports no error of the passes. -/
lemma planElf32Load_settled : Settled (¬·.PassError) (planElf32Load pageSize image) := by
  refine checkElfHeader_settled.bind fun _ _ =>
    (Settled.foldlM (fun _ _ => planProgramHeader_settled) _ _).bind fun plan _ =>
    .refuse_bind (fun _ => by decide) fun _ => checkDynamicSegment_settled.bind fun _ _ =>
    (settled_refuse fun _ => by decide).bind fun _ _ => ?_
  exact (Settled.forM (fun _ => Settled.forM checkRelroPage_settled _) _).bind fun _ _ =>
    settled_ok _

end Planner

/-! ### Biasing -/

/-- The errors left after a successful plan. -/
def Elf32LoadError.AfterPlan (e : Elf32LoadError) : Prop :=
  e = .dynamicBaseRequired ∨ e = .dynamicBaseUnaligned ∨ e = .loadBiasOverflow
    ∨ e = .entryAddressOverflow ∨ e = .addressConflict

instance (e : Elf32LoadError) : Decidable e.AfterPlan :=
  inferInstanceAs (Decidable (_ ∨ _))

section Biasing

variable {pageSize : ℕ} {image : List UInt8} {plan : Elf32LoadPlan}
  {options : Elf32LoadOptions} {loadBias : UInt32}

lemma planLoadBias_settled : Settled (·.AfterPlan) (planLoadBias pageSize plan options) := by
  rw [planLoadBias]
  split
  · exact settled_ok _
  · exact settled_error.mpr (by decide)
  · exact .refuse_bind (fun _ => by decide) fun _ => .refuse_bind (fun _ => by decide) fun _ =>
      .refuse_bind (fun _ => by decide) fun _ => .refuse_bind (fun _ => by decide) fun _ =>
      settled_ok _

lemma biasEntry_settled : Settled (·.AfterPlan) (biasEntry loadBias plan) := by
  rw [biasEntry]
  split
  · exact .refuse_bind (fun _ => by decide) fun _ => settled_ok _
  · exact settled_ok _

/-- An accepted bias keeps the extent of the plan inside the address space. -/
lemma BiasOk.fits (h : BiasOk pageSize plan options loadBias) (hmax : plan.maximumPageEnd ≤ 2 ^ 32) :
    plan.maximumPageEnd + loadBias.toNat ≤ 2 ^ 32 := by
  cases h with
  | executable _ hzero =>
      rw [hzero]
      exact hmax
  | dynamic _ _ _ _ _ hfits _ => exact hfits

/-- Biasing an accepted plan fails only at the base or the entry point. -/
lemma biasPlan_settled (hps : pageSize ∣ 2 ^ 32) (hplan : planElf32Load pageSize image = .ok plan) :
    Settled (·.AfterPlan) (biasPlan pageSize plan options) := by
  obtain ⟨hc, hmin, hdynamic, -, hrelro⟩ := planElf32Load_ok hplan
  refine Settled.bind planLoadBias_settled fun loadBias hload => ?_
  refine Settled.bind biasEntry_settled fun entry hentry => ?_
  -- with the bias and the entry point accepted, nothing that follows fails
  have hfits := (planLoadBias_ok hload).fits (hc.bounds hps hmin).2.2.2
  obtain ⟨biased, hbiased, -⟩ :=
    biasPlan_of_fits hc hps hfits hdynamic hrelro hload (biasEntry_ok_iff.mp ⟨entry, hentry⟩)
  rw [biasPlan, hload, ok_bind, hentry, ok_bind] at hbiased
  rw [hbiased]
  exact settled_ok _

/-- Preparing an accepted image fails at the same places, or meets a mapped page. -/
lemma prepareElf32Load_settled {memory : MappedGuestMemory}
    (hplan : planElf32Load memory.pageSize image = .ok plan) :
    Settled (·.AfterPlan) (prepareElf32Load memory image options) := by
  rw [prepareElf32Load, hplan, ok_bind]
  exact (biasPlan_settled memory.pageSize_dvd hplan).bind fun biased _ =>
    .refuse_bind (fun _ => by decide) fun _ => settled_ok _

end Biasing

/-! ### The loader -/

/-- **Once planned and unconflicted, a load cannot fail.**  With a host that never fails, the
loader reports no error of its passes; and after a successful plan it reports only that the
base is missing, unaligned or out of range, that the entry point is out of range, or that
the mappings are taken. -/
theorem load_failures (memory : MappedGuestMemory) (image : List UInt8)
    (options : Elf32LoadOptions) (hhost : ∀ n call, memory.host n call = true)
    (e : Elf32LoadError) (h : (loadElf32 memory image options).1 = .error e) :
    (e ≠ .mapFailed ∧ e ≠ .writeFailed ∧ e ≠ .protectFailed)
      ∧ ∀ plan, planElf32Load memory.pageSize image = .ok plan →
          e = .dynamicBaseRequired ∨ e = .dynamicBaseUnaligned ∨ e = .loadBiasOverflow
            ∨ e = .entryAddressOverflow ∨ e = .addressConflict := by
  rw [loadElf32] at h
  rcases hprepare : prepareElf32Load memory image options with e' | biased
  · rw [hprepare] at h
    cases h
    cases hplan : planElf32Load memory.pageSize image with
    | error e' =>
        rw [prepareElf32Load, hplan, error_bind] at hprepare
        cases hprepare
        have hsettled : ¬e.PassError := planElf32Load_settled e hplan
        rw [Elf32LoadError.PassError, not_or, not_or] at hsettled
        exact ⟨hsettled, fun plan hok => by cases hok⟩
    | ok plan =>
        have hafter : e.AfterPlan := prepareElf32Load_settled hplan e hprepare
        refine ⟨?_, fun _ _ => hafter⟩
        rcases hafter with rfl | rfl | rfl | rfl | rfl <;> decide
  · obtain ⟨plan, hprep⟩ := prepareElf32Load_ok hprepare
    obtain ⟨m, hrun⟩ := MappedGuestMemory.loadSegments_succeeds hprep.allOk
      (prepareElf32Load_free hprepare) hprep.ranges_disjoint hhost
    rw [hprepare] at h
    dsimp only at h
    rw [hrun] at h
    cases h

/-- Loading an image twice at one base. -/
theorem load_failures_twice :
    let options : Elf32LoadOptions := { dynamicBase := some 0x10000 }
    (loadElf32 (loadElf32 vacantMemory tinyImage options).2 tinyImage options).1
        = .error .addressConflict
      ∧ Elf32LoadError.addressConflict ≠ .mapFailed := by
  intro options
  have hhost (n : ℕ) (call : HostCall) :
      (loadElf32 vacantMemory tinyImage options).2.host n call = true := by
    have hload : loadElf32 vacantMemory tinyImage options
      = (.ok _, (loadElf32 vacantMemory tinyImage options).2) := rfl
    obtain ⟨plan, biased, -, -, hloaded⟩ := loadElf32_ok hload
    rw [hloaded.frame.host]
    rfl
  have hfailed : (loadElf32 (loadElf32 vacantMemory tinyImage options).2 tinyImage options).1
      = .error .addressConflict := by decide +kernel
  exact ⟨hfailed, (load_failures _ tinyImage options hhost _ hfailed).1.1⟩

end LibA32Android
