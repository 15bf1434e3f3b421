/-
The order of the dynamic entries.

`DT_NEEDED` entries accumulate in their order.  Every other entry that the collection uses
fills a slot of its own, which may be filled once, and a second entry for a slot is refused
with the same error wherever it stands.

* `collectEntry_comm`: two entries other than `DT_NEEDED` may change places;
* `foldlM_collectEntry`: the `DT_NEEDED` entries may be taken out of the loop;
* `collect_order`: the collection depends on the entries that it uses up to a
  permutation, and on the order of the `DT_NEEDED` entries.
-/
import LibA32Android.Elf.LinkerMetadata

namespace LibA32Android

open Foundations

/-! ### Slots -/

namespace Elf32DynamicEntry

/-- A tag with a `case` of its own in the loop. -/
def recognised (entry : Elf32DynamicEntry) : Bool :=
  entry.tag = 1 || entry.tag = 16 || (singletonField entry.tag).isSome

def isNeeded (entry : Elf32DynamicEntry) : Bool := entry.tag = 1

/-- What an entry other than `DT_NEEDED` fills: the flag of `DT_SYMBOLIC`, here `none`, or
an optional. -/
def slot (entry : Elf32DynamicEntry) : Option (Option SingletonField) :=
  if entry.tag = 16 then some none else (singletonField entry.tag).map some

end Elf32DynamicEntry

namespace Elf32Collection

variable (c : Elf32Collection)

/-- A slot that is filled. -/
def taken : Option SingletonField → Bool
  | none => c.hasDtSymbolic
  | some field => (c.fields field).isSome

/-- Fill a slot. -/
def put (value : UInt32) : Option SingletonField → Elf32Collection
  | none => { c with hasDtSymbolic := true }
  | some field => { c with fields := Function.update c.fields field (some value) }

lemma taken_put (value : UInt32) (slot slot' : Option SingletonField) :
    (c.put value slot).taken slot' = (decide (slot' = slot) || c.taken slot') := by
  cases slot with
  | none => cases slot' <;> simp [taken, put]
  | some field =>
      cases slot' with
      | none => simp [taken, put]
      | some field' =>
          by_cases h : field' = field
          · subst h
            simp [taken, put]
          · simp [taken, put, h]

lemma put_comm {slot slot' : Option SingletonField} (h : slot ≠ slot') (value value' : UInt32) :
    (c.put value slot).put value' slot' = (c.put value' slot').put value slot := by
  cases slot with
  | none =>
      cases slot' with
      | none => exact absurd rfl h
      | some field' => rfl
  | some field =>
      cases slot' with
      | none => rfl
      | some field' =>
          have hne : field ≠ field' := fun heq => h (congrArg some heq)
          simp only [put, Function.update_comm hne]

/-- More `DT_NEEDED` offsets behind those that were seen. -/
def addNeeded (offsets : List UInt32) : Elf32Collection :=
  { c with neededOffsets := c.neededOffsets ++ offsets }

end Elf32Collection

variable {c : Elf32Collection} {entry entry' : Elf32DynamicEntry} {l : List Elf32DynamicEntry}

/-! ### Rounds of the loop -/

/-- A round on an entry other than `DT_NEEDED`. -/
lemma collectEntry_eq (h : entry.isNeeded = false) :
    collectEntry c entry = match entry.slot with
      | none => .ok c
      | some slot =>
        if c.taken slot then .error .duplicateSingleton else .ok (c.put entry.value slot) := by
  have htag : ¬entry.tag = 1 := of_decide_eq_false h
  rw [collectEntry, if_neg htag, Elf32DynamicEntry.slot]
  by_cases hsymbolic : entry.tag = 16
  · rw [if_pos hsymbolic, if_pos hsymbolic]
    cases hflag : c.hasDtSymbolic with
    | true => simp [refuse, Elf32Collection.taken, hflag]
    | false =>
        simp [refuse, Elf32Collection.taken, hflag]
        rfl
  · rw [if_neg hsymbolic, if_neg hsymbolic]
    cases singletonField entry.tag with
    | none => rfl
    | some field =>
        cases hfield : c.fields field with
        | some value => simp [refuse, Elf32Collection.taken, hfield]
        | none =>
            simp [refuse, Elf32Collection.taken, hfield]
            rfl

lemma collectEntry_needed (h : entry.isNeeded = true) :
    collectEntry c entry = .ok (c.addNeeded [entry.value]) :=
  if_pos (of_decide_eq_true h)

lemma collectEntry_unrecognised (h : entry.recognised = false) : collectEntry c entry = .ok c := by
  simp only [Elf32DynamicEntry.recognised, Bool.or_eq_false_iff, decide_eq_false_iff_not,
    Option.isSome_eq_false_iff, Option.isNone_iff_eq_none] at h
  obtain ⟨⟨hneeded, hsymbolic⟩, hfield⟩ := h
  rw [collectEntry, if_neg hneeded, if_neg hsymbolic, hfield]

/-- **Two entries may change places**: both orders fill both slots, or both are refused. -/
lemma collectEntry_comm (h : entry.isNeeded = false) (h' : entry'.isNeeded = false)
    (c : Elf32Collection) :
    (collectEntry c entry >>= fun c => collectEntry c entry')
      = (collectEntry c entry' >>= fun c => collectEntry c entry) := by
  simp only [collectEntry_eq h, collectEntry_eq h']
  cases entry.slot with
  | none => exact (bind_pure _).symm
  | some slot =>
      cases entry'.slot with
      | none => exact bind_pure _
      | some slot' =>
          by_cases htaken : c.taken slot = true
          · by_cases htaken' : c.taken slot' = true
            · simp [htaken, htaken']
            · simp [htaken, htaken', Elf32Collection.taken_put]
          · by_cases htaken' : c.taken slot' = true
            · simp [htaken, htaken', Elf32Collection.taken_put]
            · by_cases hslot : slot = slot'
              · subst hslot
                simp [htaken, Elf32Collection.taken_put]
              · simp [htaken, htaken', Elf32Collection.taken_put, hslot, Ne.symm hslot,
                  c.put_comm hslot]

/-! ### The `DT_NEEDED` entries -/

lemma collectEntry_addNeeded (h : entry.isNeeded = false) (offsets : List UInt32) :
    collectEntry (c.addNeeded offsets) entry
      = (collectEntry c entry).map (·.addNeeded offsets) := by
  rw [collectEntry_eq h, collectEntry_eq h]
  cases entry.slot with
  | none => rfl
  | some slot =>
      have htaken : (c.addNeeded offsets).taken slot = c.taken slot := by cases slot <;> rfl
      have hput : (c.addNeeded offsets).put entry.value slot
          = (c.put entry.value slot).addNeeded offsets := by cases slot <;> rfl
      simp only [htaken, hput]
      split
      · rfl
      · rfl

lemma foldlM_addNeeded (h : ∀ entry ∈ l, entry.isNeeded = false) (c : Elf32Collection)
    (offsets : List UInt32) :
    l.foldlM collectEntry (c.addNeeded offsets)
      = (l.foldlM collectEntry c).map (·.addNeeded offsets) := by
  induction l generalizing c with
  | nil => rfl
  | cons entry l ih =>
      obtain ⟨hentry, hrest⟩ := List.forall_mem_cons.mp h
      rw [List.foldlM_cons, List.foldlM_cons, collectEntry_addNeeded hentry]
      cases collectEntry c entry with
      | error e => rfl
      | ok c' => exact ih hrest c'

/-- **The `DT_NEEDED` entries apart**: the loop over the other entries, and their offsets in
order. -/
lemma foldlM_collectEntry (l : List Elf32DynamicEntry) (c : Elf32Collection) :
    l.foldlM collectEntry c
      = ((l.filter fun entry => !entry.isNeeded).foldlM collectEntry c).map
          (·.addNeeded ((l.filter (·.isNeeded)).map (·.value))) := by
  induction l generalizing c with
  | nil =>
      simp [Except.map, Elf32Collection.addNeeded, pure, Except.pure]
  | cons entry l ih =>
      rw [List.foldlM_cons, List.filter_cons, List.filter_cons]
      cases hneeded : entry.isNeeded with
      | true =>
          rw [collectEntry_needed hneeded, ok_bind, ih, foldlM_addNeeded (by simp)]
          simp only [Bool.not_true, Bool.false_eq_true, if_false, if_true, List.map_cons]
          cases (l.filter fun entry => !entry.isNeeded).foldlM collectEntry c with
          | error e => rfl
          | ok c' => simp [Except.map, Elf32Collection.addNeeded]
      | false =>
          simp only [Bool.not_false, Bool.false_eq_true, if_false, if_true, List.foldlM_cons]
          cases collectEntry c entry with
          | error e => rfl
          | ok c' => exact ih c'

/-! ### Permutations -/

/-- The entries that the loop reads. -/
def beforeNull (entries : List Elf32DynamicEntry) : List Elf32DynamicEntry :=
  entries.takeWhile fun entry => entry.tag ≠ 0

lemma collectEntries_congr {entries entries' : List Elf32DynamicEntry}
    (hperm : ((beforeNull entries).filter (·.recognised)).Perm
      ((beforeNull entries').filter (·.recognised)))
    (hneeded : (beforeNull entries).filter (·.isNeeded)
      = (beforeNull entries').filter (·.isNeeded)) :
    collectEntries entries = collectEntries entries' := by
  have hskip : ∀ l : List Elf32DynamicEntry, ∀ entry ∈ l, entry.recognised = false →
      ∀ c, collectEntry c entry = .ok c := fun _ _ _ h _ => collectEntry_unrecognised h
  have hsame : ∀ l : List Elf32DynamicEntry,
      (l.filter (·.recognised)).filter (·.isNeeded) = l.filter (·.isNeeded) := fun l => by
    rw [List.filter_filter]
    refine List.filter_congr fun entry _ => ?_
    simp only [Elf32DynamicEntry.recognised, Elf32DynamicEntry.isNeeded]
    cases decide (entry.tag = 1) <;> rfl
  have hothers : ∀ entry ∈ ((beforeNull entries).filter (·.recognised)).filter
      (fun entry => !entry.isNeeded), entry.isNeeded = false := fun entry hentry => by
    simpa using (List.mem_filter.mp hentry).2
  show (beforeNull entries).foldlM collectEntry {} = (beforeNull entries').foldlM collectEntry {}
  rw [← foldlM_filter_of_skip (hskip _), ← foldlM_filter_of_skip (hskip (beforeNull entries')),
    foldlM_collectEntry, foldlM_collectEntry ((beforeNull entries').filter _), hsame, hsame, hneeded,
    foldlM_perm (hperm.filter _) fun entry hentry entry' hentry' =>
      collectEntry_comm (hothers entry hentry) (hothers entry' hentry')]

/-- **The order of the entries does not matter but for `DT_NEEDED`.**  Take two lists whose
parts before the first `DT_NULL` have the same entries with recognised tags up to a
permutation, and the same `DT_NEEDED` entries in the same order.  Then the collections
return the same error or the same metadata. -/
theorem collect_order {entries entries' : List Elf32DynamicEntry}
    (hperm : ((beforeNull entries).filter (·.recognised)).Perm
      ((beforeNull entries').filter (·.recognised)))
    (hneeded : (beforeNull entries).filter (·.isNeeded)
      = (beforeNull entries').filter (·.isNeeded)) :
    collectElf32LinkerMetadata entries = collectElf32LinkerMetadata entries' := by
  rw [collectElf32LinkerMetadata, collectElf32LinkerMetadata, collectEntries_congr hperm hneeded]

/-- A string table and two needed names, in two orders and with other entries in between. -/
def orderedEntries : List Elf32DynamicEntry :=
  [⟨5, 0x100⟩, ⟨10, 8⟩, ⟨1, 1⟩, ⟨1, 4⟩, ⟨16, 0⟩, ⟨0, 0⟩]

def shuffledEntries : List Elf32DynamicEntry :=
  [⟨21, 7⟩, ⟨1, 1⟩, ⟨16, 0⟩, ⟨10, 8⟩, ⟨21, 9⟩, ⟨1, 4⟩, ⟨5, 0x100⟩, ⟨0, 3⟩, ⟨5, 9⟩]

theorem collect_order_shuffled :
    collectElf32LinkerMetadata shuffledEntries
      = .ok { stringTable := some ⟨0x100, 8⟩, neededOffsets := [1, 4], symbolic := true } := by
  have horder : collectElf32LinkerMetadata shuffledEntries
      = collectElf32LinkerMetadata orderedEntries := collect_order (by decide) (by decide)
  rw [horder]
  decide

end LibA32Android
