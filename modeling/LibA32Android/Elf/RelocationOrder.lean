/-
The order in which objects are relocated.

A caller relocates the objects of its graphs one by one.  Each call reads tables and places and
then writes its places, and when no call writes what another one reads, the order is the
caller's to choose.

* `RelocationJob`, `relocateAll`: a call for an object, and one call after the other;
* `RelocationJob.Spares`: what a call writes is not read for another one;
* `RelocationJob.apply_after`: then the other one does not notice;
* `relocation_order`: calls that spare each other, in any order.
-/
import LibA32Android.Elf.CombinedRelocation

namespace LibA32Android

open Foundations QueryProgram

/-! ### Jobs -/

/-- A relocation call for an object of a graph. -/
structure RelocationJob where
  call : RelocationCall
  graph : Elf32DependencyGraph
  objectIndex : ℕ
  options : Elf32RelocationOptions

namespace RelocationJob

def apply (job : RelocationJob) (m : MappedGuestMemory) :
    Elf32RelocationApplyResult × MappedGuestMemory :=
  job.call.apply m job.graph job.objectIndex job.options

def prepare (job : RelocationJob) :
    GuestRead Elf32RelocationApplyResult (List Elf32RelocationWrite) :=
  job.call.prepare job.graph job.objectIndex job.options

/-- What the call writes to a memory. -/
def writes (job : RelocationJob) (m : MappedGuestMemory) : List Elf32RelocationWrite :=
  (job.apply m).1.application.writes

/-- No byte that the first job writes is read for the second one. -/
def Spares (m : MappedGuestMemory) (job job' : RelocationJob) : Prop :=
  ∀ write ∈ job.writes m, ∀ q ∈ job'.prepare.asked (GuestMemory.reads m),
    ∀ x < q.2, q.1.toNat + x < write.placeGuestAddress.toNat
      ∨ write.placeGuestAddress.toNat + 4 ≤ q.1.toNat + x

instance (m : MappedGuestMemory) (job job' : RelocationJob) : Decidable (Spares m job job') :=
  inferInstanceAs (Decidable (∀ write ∈ job.writes m, _))

/-- Neither job writes what is read for the other one. -/
def Independent (m : MappedGuestMemory) (job job' : RelocationJob) : Prop :=
  Spares m job job' ∧ Spares m job' job

instance (m : MappedGuestMemory) (job job' : RelocationJob) : Decidable (Independent m job job') :=
  inferInstanceAs (Decidable (_ ∧ _))

end RelocationJob

/-- One call after the other: their results, and the memory at the end. -/
def relocateAll :
    List RelocationJob → MappedGuestMemory → List Elf32RelocationApplyResult × MappedGuestMemory
  | [], m => ([], m)
  | job :: jobs, m =>
    let first := job.apply m
    let rest := relocateAll jobs first.2
    (first.1 :: rest.1, rest.2)

/-! ### One job -/

section Job

variable {m : MappedGuestMemory} {job job' : RelocationJob}

/-- Whether writes are allowed does not depend on the bytes. -/
lemma writeAll_withBytes {m m' : MappedGuestMemory} {writes : List Elf32RelocationWrite}
    (h : writeAll writes m = some m') (bytes : ℕ → UInt8) :
    ∃ m'', writeAll writes (m.withBytes bytes) = some m'' := by
  induction writes generalizing m bytes with
  | nil => exact ⟨_, rfl⟩
  | cons write writes ih =>
      rw [writeAll] at h
      split at h
      · rename_i m₁ hwrite
        obtain ⟨haccess, rfl⟩ := MappedGuestMemory.write_eq_true hwrite
        obtain ⟨m'', hrest⟩ := ih h
          (overwrite bytes write.placeGuestAddress.toNat (encodeU32Le write.finalWord))
        rw [MappedGuestMemory.withBytes_withBytes] at hrest
        have hwritten : writeWord (m.withBytes bytes) write.placeGuestAddress write.finalWord
            = (true, m.withBytes
              (overwrite bytes write.placeGuestAddress.toNat (encodeU32Le write.finalWord))) :=
          if_pos haccess
        rw [writeAll, hwritten]
        exact ⟨m'', hrest⟩
      · cases h

/-- A job that succeeds alone. -/
lemma RelocationJob.apply_ok (h : (job.apply m).1.error = none) :
    job.prepare.under (GuestMemory.reads m) = .ok (job.writes m)
      ∧ writeAll (job.writes m) m = some (job.apply m).2
      ∧ (job.apply m).1
        = { application := { objectIndex := job.objectIndex, writes := job.writes m } } := by
  have happly : job.call.apply m job.graph job.objectIndex job.options
      = ((job.apply m).1, (job.apply m).2) := rfl
  obtain ⟨pending, hprepare, hwrites, hresult⟩ :=
    (RelocationCall.apply_eq_ok_iff job.call).mp ⟨happly, h⟩
  have hpending : job.writes m = pending := by
    rw [writes, hresult]
  rw [hpending]
  exact ⟨hprepare, hwrites, hresult⟩

/-- **A job does not notice writes that spare it.** -/
lemma RelocationJob.apply_after (h : (job.apply m).1.error = none)
    {done : List Elf32RelocationWrite}
    (hspared : ∀ write ∈ done, ∀ q ∈ job.prepare.asked (GuestMemory.reads m),
      ∀ x < q.2, q.1.toNat + x < write.placeGuestAddress.toNat
        ∨ write.placeGuestAddress.toNat + 4 ≤ q.1.toNat + x) :
    job.apply (m.withBytes (overwriteAll m.reservation (done.map (·.bytes))))
      = ((job.apply m).1, m.withBytes (overwriteAll m.reservation
          ((done ++ job.writes m).map (·.bytes)))) := by
  obtain ⟨hprepare, hwrites, hresult⟩ := job.apply_ok h
  let m₁ := m.withBytes (overwriteAll m.reservation (done.map (·.bytes)))
  have hsame : job.prepare.under (GuestMemory.reads m₁) = .ok (job.writes m) := by
    rw [← hprepare]
    refine under_congr_asked fun q hq => MappedGuestMemory.reads_withBytes fun x hx => ?_
    refine overwriteAll_of_outside fun w hw => ?_
    obtain ⟨write, hwrite, rfl⟩ := List.mem_map.mp hw
    exact hspared write hwrite q hq x hx
  obtain ⟨m₂, hwrites₂⟩ := writeAll_withBytes hwrites
    (overwriteAll m.reservation (done.map (·.bytes)))
  have happly := ((RelocationCall.apply_eq_ok_iff job.call).mpr
    ⟨job.writes m, hsame, hwrites₂, hresult⟩).1
  refine happly.trans ?_
  rw [MappedGuestMemory.writeAll_eq hwrites₂, List.map_append, overwriteAll_append]
  rfl

/-- The places of a job are read for it: an answer without them could not be prepared. -/
lemma RelocationJob.place_asked (h : (job.apply m).1.error = none)
    {write : Elf32RelocationWrite} (hwrite : write ∈ job.writes m) :
    (write.placeGuestAddress, 4) ∈ job.prepare.asked (GuestMemory.reads m) := by
  by_contra hnot
  let blind : ReadOracle := fun q =>
    if q = (write.placeGuestAddress, 4) then none else GuestMemory.reads m q
  have hsame : job.prepare.under blind = job.prepare.under (GuestMemory.reads m) :=
    under_congr_asked fun q hq => if_neg (ne_of_mem_of_not_mem hq hnot)
  have hblind := job.call.prepare_pending (hsame.trans (job.apply_ok h).1)
  obtain ⟨bytes, hbytes, -⟩ := hblind.original write hwrite
  rw [show blind (write.placeGuestAddress, 4) = none from if_pos rfl] at hbytes
  cases hbytes

/-- The words of two jobs do not meet when the first spares the second. -/
lemma RelocationJob.Spares.apart (h : Spares m job job')
    (hok' : (job'.apply m).1.error = none) {write write' : Elf32RelocationWrite}
    (hwrite : write ∈ job.writes m) (hwrite' : write' ∈ job'.writes m) :
    Apart write.bytes write'.bytes := by
  by_contra hmeet
  rw [Apart] at hmeet
  change ¬(write.placeGuestAddress.toNat + 4 ≤ write'.placeGuestAddress.toNat
    ∨ write'.placeGuestAddress.toNat + 4 ≤ write.placeGuestAddress.toNat) at hmeet
  -- the first byte that they have in common
  have hbyte := h write hwrite _ (job'.place_asked hok' hwrite')
    (write.placeGuestAddress.toNat - write'.placeGuestAddress.toNat)
    (show _ < 4 by omega)
  dsimp only at hbyte
  omega

end Job

/-! ### All jobs -/

section Jobs

variable {m : MappedGuestMemory} {jobs : List RelocationJob}

/-- What some jobs write, each from the same memory. -/
def jobWrites (m : MappedGuestMemory) (jobs : List RelocationJob) : List Elf32RelocationWrite :=
  jobs.flatMap (·.writes m)

/-- **The calls one after the other** give what each gives alone. -/
lemma relocateAll_eq (hok : ∀ job ∈ jobs, (job.apply m).1.error = none)
    (hindependent : jobs.Pairwise (RelocationJob.Spares m)) (done : List Elf32RelocationWrite)
    (hspared : ∀ job ∈ jobs, ∀ write ∈ done,
      ∀ q ∈ job.prepare.asked (GuestMemory.reads m), ∀ x < q.2,
        q.1.toNat + x < write.placeGuestAddress.toNat
          ∨ write.placeGuestAddress.toNat + 4 ≤ q.1.toNat + x) :
    relocateAll jobs (m.withBytes (overwriteAll m.reservation (done.map (·.bytes))))
      = (jobs.map fun job => (job.apply m).1, m.withBytes (overwriteAll m.reservation
          ((done ++ jobWrites m jobs).map (·.bytes)))) := by
  induction jobs generalizing done with
  | nil => simp [relocateAll, jobWrites]
  | cons job jobs ih =>
      obtain ⟨hfirst, hrest⟩ := List.forall_mem_cons.mp hok
      obtain ⟨hspares, hindependent⟩ := List.pairwise_cons.mp hindependent
      obtain ⟨hdone, hdones⟩ := List.forall_mem_cons.mp hspared
      have hlater := ih hrest hindependent (done ++ job.writes m) ?_
      · rw [relocateAll, job.apply_after hfirst hdone]
        dsimp only
        rw [hlater, jobWrites, jobWrites, List.flatMap_cons, List.append_assoc, List.map_cons]
      · intro job' hjob' write hwrite
        rcases List.mem_append.mp hwrite with hwrite | hwrite
        · exact hdones job' hjob' write hwrite
        · exact hspares job' hjob' write hwrite

/-- The words of all jobs do not meet. -/
lemma jobWrites_apart (hok : ∀ job ∈ jobs, (job.apply m).1.error = none)
    (hindependent : jobs.Pairwise (RelocationJob.Spares m)) :
    ((jobWrites m jobs).map (·.bytes)).Pairwise Apart := by
  rw [jobWrites, List.pairwise_map, List.pairwise_flatMap]
  refine ⟨fun job hjob => ?_, hindependent.imp_of_mem fun {job job'} hjob hjob' hspares => ?_⟩
  · exact List.pairwise_map.mp (job.call.prepare_pending (job.apply_ok (hok job hjob)).1).apart
  · exact fun write hwrite write' hwrite' => hspares.apart (hok job' hjob') hwrite hwrite'

/-- **Objects may be relocated in any order.**  Take calls, for objects of any graphs, that
each succeed on a sparse memory and of which none writes what is read for another one.  Made
one after the other, in any order, they all succeed with the writes that they make alone, and
leave the same memory. -/
theorem relocation_order (hok : ∀ job ∈ jobs, (job.apply m).1.error = none)
    (hindependent : jobs.Pairwise (RelocationJob.Independent m))
    {jobs' : List RelocationJob} (hperm : jobs.Perm jobs') :
    (relocateAll jobs m).1 = jobs.map (fun job => (job.apply m).1)
      ∧ relocateAll jobs' m
        = (jobs'.map fun job => (job.apply m).1, (relocateAll jobs m).2) := by
  have hindependent' : jobs'.Pairwise (RelocationJob.Independent m) :=
    (hperm.pairwise_iff fun h => And.symm h).mp hindependent
  have hok' : ∀ job ∈ jobs', (job.apply m).1.error = none :=
    fun job hjob => hok job (hperm.mem_iff.mpr hjob)
  have hempty : m.withBytes (overwriteAll m.reservation (([] : List Elf32RelocationWrite).map
      (·.bytes))) = m := rfl
  have hrun := relocateAll_eq hok (hindependent.imp And.left) []
    fun _ _ _ hwrite => absurd hwrite List.not_mem_nil
  have hrun' := relocateAll_eq hok' (hindependent'.imp And.left) []
    fun _ _ _ hwrite => absurd hwrite List.not_mem_nil
  rw [hempty, List.nil_append] at hrun hrun'
  have hwrites : (jobWrites m jobs).Perm (jobWrites m jobs') := hperm.flatMap_right _
  have hmemory : overwriteAll m.reservation ((jobWrites m jobs).map (·.bytes))
      = overwriteAll m.reservation ((jobWrites m jobs').map (·.bytes)) :=
    overwriteAll_perm (hwrites.map _) (jobWrites_apart hok (hindependent.imp And.left))
  rw [hrun, hrun', hmemory]
  exact ⟨rfl, rfl⟩

end Jobs

/-- A job for each table of an object. -/
def relJob : RelocationJob := ⟨.rel, relocatableGraph, 0, relocationLimits⟩
def pltRelJob : RelocationJob := ⟨.pltRel, relocatableGraph, 0, relocationLimits⟩

theorem relocation_order_tables :
    (relocateAll [pltRelJob, relJob] relocatableMemory).1.map
        (·.application.writes.map (·.placeGuestAddress)) = [[0x110c], [0x1104, 0x1108]]
      ∧ (relocateAll [pltRelJob, relJob] relocatableMemory).2
        = (relocateAll [relJob, pltRelJob] relocatableMemory).2 := by
  have hok : ∀ job ∈ [relJob, pltRelJob], (job.apply relocatableMemory).1.error = none := by
    decide +kernel
  have hindependent :
      [relJob, pltRelJob].Pairwise (RelocationJob.Independent relocatableMemory) := by
    decide +kernel
  have horder := (relocation_order hok hindependent (List.Perm.swap pltRelJob relJob [])).2
  exact ⟨by decide +kernel, by rw [horder]⟩

end LibA32Android
