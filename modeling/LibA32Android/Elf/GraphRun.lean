/-
The run of a graph load.

* `nestedCall`, `DependencyRound`: the five ways of a round of the dependency loop;
* `GraphMoment`, `processMoments`: the points that a run passes, in order: the
  context before each load, inspection, acquisition and dependency, with the depth;
* `ProcessRule`, `processObject_rule`: what the steps keep holds at every point of a
  run and after it;
* `processObject_loadsOrEnds`: a run ends with the first load that fails;
* `processObject_loads`: the loads of a run are those made at its moments;
* `processMoments_depth`: the depth of a moment.
-/
import LibA32Android.Elf.DependencyLoader

namespace LibA32Android

open Foundations

namespace GraphLoadContext

variable {P : Type}

/-! ### Rounds -/

/-- The context of a dependency whose identity is known as `target`. -/
def withKnown (ctx : GraphLoadContext P) (index : ℕ) (dependency : Elf32ResolvedDependency)
    (target : ℕ) : GraphLoadContext P :=
  ctx.addEdge index ⟨dependency.requestedName, target⟩

/-- The context of a dependency whose identity is new. -/
def withNew (ctx : GraphLoadContext P) (index : ℕ) (dependency : Elf32ResolvedDependency) :
    GraphLoadContext P :=
  (ctx.addObject dependency.identity dependency.image).addEdge index
    ⟨dependency.requestedName, ctx.graph.objects.length⟩

/-- The object that a round processes, and the context in which it does so. -/
def nestedCall (options : Elf32DependencyLoadOptions) (index : ℕ)
    (dependency : Elf32ResolvedDependency) (ctx : GraphLoadContext P) :
    Option (ℕ × GraphLoadContext P) :=
  let targetIndex :=
    (ctx.objectIndices.lookup dependency.identity).getD ctx.graph.objects.length
  if targetIndex ≠ ctx.graph.objects.length then
    if (ctx.object targetIndex).image = dependency.image
        ∧ (ctx.withKnown index dependency targetIndex).state targetIndex = .discovered then
      some (targetIndex, ctx.withKnown index dependency targetIndex)
    else none
  else if ctx.graph.objects.length ≥ options.maxObjects.toNat then none
  else some (ctx.graph.objects.length, ctx.withNew index dependency)

/-- A round of the dependency loop: what it processes and how it ends. -/
inductive DependencyRound (options : Elf32DependencyLoadOptions)
    (process : ℕ → GraphLoadContext P →
      Except Elf32DependencyLoadFailure Unit × GraphLoadContext P)
    (index : ℕ) (dependency : Elf32ResolvedDependency) (ctx : GraphLoadContext P) :
    Option (ℕ × GraphLoadContext P) →
      Except Elf32DependencyLoadFailure Unit × GraphLoadContext P → Prop
  | mismatch (target : ℕ)
      (hlookup : ctx.objectIndices.lookup dependency.identity = some target)
      (hne : target ≠ ctx.graph.objects.length)
      (himage : (ctx.object target).image ≠ dependency.image) :
      DependencyRound options process index dependency ctx none
        (.error { loadFailure .identityImageMismatch dependency.identity with
          requestedName := dependency.requestedName }, ctx)
  | reused (target : ℕ)
      (hlookup : ctx.objectIndices.lookup dependency.identity = some target)
      (hne : target ≠ ctx.graph.objects.length)
      (himage : (ctx.object target).image = dependency.image)
      (hstate : (ctx.withKnown index dependency target).state target ≠ .discovered) :
      DependencyRound options process index dependency ctx none
        (.ok (), ctx.withKnown index dependency target)
  | resumed (target : ℕ)
      (hlookup : ctx.objectIndices.lookup dependency.identity = some target)
      (hne : target ≠ ctx.graph.objects.length)
      (himage : (ctx.object target).image = dependency.image)
      (hstate : (ctx.withKnown index dependency target).state target = .discovered) :
      DependencyRound options process index dependency ctx
        (some (target, ctx.withKnown index dependency target))
        (nameFailure dependency.requestedName
          (process target (ctx.withKnown index dependency target)))
  | full
      (hlookup : (ctx.objectIndices.lookup dependency.identity).getD ctx.graph.objects.length
        = ctx.graph.objects.length)
      (hmax : options.maxObjects.toNat ≤ ctx.graph.objects.length) :
      DependencyRound options process index dependency ctx none
        (.error { loadFailure .tooManyObjects dependency.identity with
          requestedName := dependency.requestedName }, ctx)
  | added
      (hlookup : (ctx.objectIndices.lookup dependency.identity).getD ctx.graph.objects.length
        = ctx.graph.objects.length)
      (hmax : ctx.graph.objects.length < options.maxObjects.toNat) :
      DependencyRound options process index dependency ctx
        (some (ctx.graph.objects.length, ctx.withNew index dependency))
        (nameFailure dependency.requestedName
          (process ctx.graph.objects.length (ctx.withNew index dependency)))

/-- Every round is one of the five. -/
lemma dependencyRound (options : Elf32DependencyLoadOptions)
    (process : ℕ → GraphLoadContext P →
      Except Elf32DependencyLoadFailure Unit × GraphLoadContext P)
    (index : ℕ) (dependency : Elf32ResolvedDependency) (ctx : GraphLoadContext P) :
    DependencyRound options process index dependency ctx (nestedCall options index dependency ctx)
      (ctx.processDependency options process index dependency) := by
  by_cases hnew : (ctx.objectIndices.lookup dependency.identity).getD ctx.graph.objects.length
      = ctx.graph.objects.length
  · by_cases hmax : ctx.graph.objects.length ≥ options.maxObjects.toNat
    · simp only [nestedCall, processDependency, hnew, ne_eq, not_true_eq_false, if_false, hmax,
        if_true]
      exact .full hnew hmax
    · simp only [nestedCall, processDependency, hnew, ne_eq, not_true_eq_false, if_false, hmax]
      exact .added hnew (Nat.not_le.mp hmax)
  · -- the default is the number of objects, so there is an entry
    cases hlookup : ctx.objectIndices.lookup dependency.identity with
    | none => simp [hlookup] at hnew
    | some target =>
        rw [hlookup, Option.getD_some] at hnew
        by_cases himage : (ctx.object target).image = dependency.image
        · by_cases hstate : (ctx.withKnown index dependency target).state target = .discovered
          · have hstate' := hstate
            rw [withKnown] at hstate'
            simp only [nestedCall, processDependency, hlookup, Option.getD_some, ne_eq, hnew,
              not_false_eq_true, if_true, himage, hstate, hstate', and_self, not_true_eq_false,
              if_false]
            exact .resumed target hlookup hnew himage hstate
          · have hstate' := hstate
            rw [withKnown] at hstate'
            simp only [nestedCall, processDependency, hlookup, Option.getD_some, ne_eq, hnew,
              not_false_eq_true, if_true, himage, hstate, hstate', and_false, not_true_eq_false,
              if_false]
            exact .reused target hlookup hnew himage hstate
        · simp only [nestedCall, processDependency, hlookup, Option.getD_some, ne_eq, hnew,
            not_false_eq_true, if_true, himage, false_and, if_false]
          exact .mismatch target hlookup hnew himage

/-! ### Moments -/

/-- What comes next. -/
inductive GraphStage where
  | load (requireDynamic : Bool)
  | inspect
  | acquire
  | dependency (dependency : Elf32ResolvedDependency)
  deriving DecidableEq, Repr

end GraphLoadContext

/-- A point of a run: the depth and the index of the object that is processed, what
comes next, and the context. -/
structure GraphMoment (P : Type) where
  depth : ℕ
  index : ℕ
  stage : GraphLoadContext.GraphStage
  ctx : GraphLoadContext P

namespace GraphLoadContext

variable {P : Type}

/-- The moments of a dependency loop. -/
def dependencyMoments (options : Elf32DependencyLoadOptions)
    (process : ℕ → GraphLoadContext P →
      Except Elf32DependencyLoadFailure Unit × GraphLoadContext P)
    (moments : ℕ → GraphLoadContext P → List (GraphMoment P)) (depth index : ℕ) :
    List Elf32ResolvedDependency → GraphLoadContext P → List (GraphMoment P)
  | [], _ => []
  | dependency :: dependencies, ctx =>
    ⟨depth, index, .dependency dependency, ctx⟩ ::
      (((nestedCall options index dependency ctx).elim [] fun call => moments call.1 call.2)
        ++ afterOk (ctx.processDependency options process index dependency) fun _ ctx =>
          dependencyMoments options process moments depth index dependencies ctx)

/-- The moments of `process_object`. -/
def processMoments [Elf32DependencyProvider P] (options : Elf32DependencyLoadOptions) :
    ℕ → ℕ → ℕ → Bool → GraphLoadContext P → List (GraphMoment P)
  | 0, _, _, _, _ => []
  | levels + 1, depth, index, requireDynamic, ctx =>
    if ctx.state index ≠ .discovered then []
    else
      ⟨depth, index, .load requireDynamic, ctx.setState index .loading⟩ ::
        afterOk ((ctx.setState index .loading).loadAt options index requireDynamic) fun _ ctx =>
          ⟨depth, index, .inspect, ctx⟩ :: afterOk (ctx.inspectAt options index) fun _ ctx =>
            ⟨depth, index, .acquire, ctx⟩ ::
              afterOk (ctx.acquireAt options index) fun dependencies ctx =>
                dependencyMoments options
                  (fun target ctx => processObject options levels target true ctx)
                  (fun target ctx => processMoments options levels (depth + 1) target true ctx)
                  depth index dependencies ctx

/-- A load of the moments fails and leaves `ctx`, with the error of `failure`. -/
def FailedLoad (options : Elf32DependencyLoadOptions)
    (moments : List (GraphMoment P)) (failure : Elf32DependencyLoadFailure)
    (ctx : GraphLoadContext P) : Prop :=
  ∃ moment ∈ moments, ∃ requireDynamic failure', moment.stage = .load requireDynamic
    ∧ moment.ctx.loadAt options moment.index requireDynamic = (.error failure', ctx)
    ∧ failure.error = failure'.error

lemma FailedLoad.mono {options : Elf32DependencyLoadOptions}
    {moments moments' : List (GraphMoment P)} {failure : Elf32DependencyLoadFailure}
    {ctx : GraphLoadContext P} (h : FailedLoad options moments failure ctx)
    (hsub : ∀ moment ∈ moments, moment ∈ moments') : FailedLoad options moments' failure ctx := by
  obtain ⟨moment, hmem, hrest⟩ := h
  exact ⟨moment, hsub moment hmem, hrest⟩

/-! ### The rule of a run -/

/-- The premises of the rule: `I` holds between the steps, `F` after a step other
than a load that fails, and `J` of the objects that are processed. -/
structure ProcessRule [Elf32DependencyProvider P] (options : Elf32DependencyLoadOptions)
    (I : GraphLoadContext P → Prop)
    (F : Elf32DependencyLoadFailure → GraphLoadContext P → Prop) (J : ℕ → Prop) : Prop where
  named : ∀ {failure ctx name}, F failure ctx → F { failure with requestedName := name } ctx
  discovered : ∀ {ctx index}, I ctx → ctx.state index = .discovered → J index
  tooDeep : ∀ {ctx index}, I ctx → ctx.state index = .discovered →
    F (loadFailure .maxDepthExceeded (ctx.object index).identity) ctx
  begun : ∀ {ctx index}, I ctx → ctx.state index = .discovered → I (ctx.setState index .loading)
  ended : ∀ {ctx index}, I ctx → J index → I (ctx.setState index .loaded)
  loaded : ∀ {ctx ctx' index requireDynamic}, I ctx → J index →
    ctx.loadAt options index requireDynamic = (.ok (), ctx') → I ctx'
  inspected : ∀ {ctx index}, I ctx → J index → Leaves (fun _ => I) F (ctx.inspectAt options index)
  acquired : ∀ {ctx index}, I ctx → J index →
    Leaves (fun dependencies ctx => I ctx ∧ ∀ d ∈ dependencies, d.Ok) F
      (ctx.acquireAt options index)
  mismatched : ∀ {ctx} {dependency : Elf32ResolvedDependency}, I ctx →
    F { loadFailure .identityImageMismatch dependency.identity with
      requestedName := dependency.requestedName } ctx
  full : ∀ {ctx} {dependency : Elf32ResolvedDependency}, I ctx →
    F { loadFailure .tooManyObjects dependency.identity with
      requestedName := dependency.requestedName } ctx
  known : ∀ {ctx index} {dependency : Elf32ResolvedDependency} {target}, I ctx → J index →
    dependency.Ok → ctx.objectIndices.lookup dependency.identity = some target →
    I (ctx.withKnown index dependency target)
  added : ∀ {ctx index} {dependency : Elf32ResolvedDependency}, I ctx → J index → dependency.Ok →
    (ctx.objectIndices.lookup dependency.identity).getD ctx.graph.objects.length
      = ctx.graph.objects.length →
    ctx.graph.objects.length < options.maxObjects.toNat → I (ctx.withNew index dependency)

section Rule

variable [Elf32DependencyProvider P] {options : Elf32DependencyLoadOptions}
  {I : GraphLoadContext P → Prop} {F : Elf32DependencyLoadFailure → GraphLoadContext P → Prop}
  {J : ℕ → Prop} {ctx : GraphLoadContext P} {index : ℕ}

/-- What the rule gives: `I` after a run that succeeds and at its moments, and `F`
or a failed load when it fails. -/
structure Follows (options : Elf32DependencyLoadOptions) (I : GraphLoadContext P → Prop)
    (F : Elf32DependencyLoadFailure → GraphLoadContext P → Prop)
    (run : Except Elf32DependencyLoadFailure Unit × GraphLoadContext P)
    (moments : List (GraphMoment P)) : Prop where
  leaves : Leaves (fun _ => I)
    (fun failure ctx => F failure ctx ∨ FailedLoad options moments failure ctx) run
  moments : ∀ moment ∈ moments, I moment.ctx

omit [Elf32DependencyProvider P] in
/-- The end of a run, with more moments. -/
lemma Follows.leaves_mono {run : Except Elf32DependencyLoadFailure Unit × GraphLoadContext P}
    {moments moments' : List (GraphMoment P)} (h : Follows options I F run moments)
    (hsub : ∀ moment ∈ moments, moment ∈ moments') :
    Leaves (fun _ => I)
      (fun failure ctx => F failure ctx ∨ FailedLoad options moments' failure ctx) run :=
  h.leaves.mono (fun _ _ hI => hI) fun _ _ hF => hF.imp_right fun hfailed => hfailed.mono hsub

/-- A name for the failure changes nothing that the rule gives. -/
lemma Follows.nameFailure (hrule : ProcessRule options I F J) {requestedName : ByteString}
    {nested : Except Elf32DependencyLoadFailure Unit × GraphLoadContext P}
    {moments : List (GraphMoment P)} (h : Follows options I F nested moments) :
    Follows options I F (nameFailure requestedName nested) moments := by
  refine ⟨?_, h.moments⟩
  have hleaves := h.leaves
  obtain ⟨r, ctx⟩ := nested
  cases r with
  | ok _ => exact hleaves
  | error failure =>
      rw [GraphLoadContext.nameFailure]
      split
      · exact hleaves.imp hrule.named id
      · exact hleaves

/-- A round, given the rule for what it processes. -/
lemma processDependency_rule (hrule : ProcessRule options I F J)
    {process : ℕ → GraphLoadContext P →
      Except Elf32DependencyLoadFailure Unit × GraphLoadContext P}
    {moments : ℕ → GraphLoadContext P → List (GraphMoment P)}
    (hprocess : ∀ target ctx, I ctx →
      Follows options I F (process target ctx) (moments target ctx))
    (hindex : J index) {dependency : Elf32ResolvedDependency} (hok : dependency.Ok) (h : I ctx) :
    Follows options I F (ctx.processDependency options process index dependency)
      ((nestedCall options index dependency ctx).elim [] fun call => moments call.1 call.2) := by
  have hround := dependencyRound options process index dependency ctx
  generalize nestedCall options index dependency ctx = nested at hround ⊢
  generalize ctx.processDependency options process index dependency = result at hround ⊢
  cases hround with
  | mismatch => exact ⟨.inl (hrule.mismatched h), fun _ hm => absurd hm List.not_mem_nil⟩
  | reused target hlookup =>
      exact ⟨hrule.known h hindex hok hlookup, fun _ hm => absurd hm List.not_mem_nil⟩
  | resumed target hlookup =>
      exact (hprocess target _ (hrule.known h hindex hok hlookup)).nameFailure hrule
  | full => exact ⟨.inl (hrule.full h), fun _ hm => absurd hm List.not_mem_nil⟩
  | added hlookup hmax =>
      exact (hprocess _ _ (hrule.added h hindex hok hlookup hmax)).nameFailure hrule

/-- The dependency loop, given the rule for what it processes. -/
lemma processDependencies_rule (hrule : ProcessRule options I F J)
    {process : ℕ → GraphLoadContext P →
      Except Elf32DependencyLoadFailure Unit × GraphLoadContext P}
    {moments : ℕ → GraphLoadContext P → List (GraphMoment P)}
    (hprocess : ∀ target ctx, I ctx →
      Follows options I F (process target ctx) (moments target ctx))
    (hindex : J index) (depth : ℕ) {dependencies : List Elf32ResolvedDependency}
    (hok : ∀ d ∈ dependencies, d.Ok) (h : I ctx) :
    Follows options I F (ctx.processDependencies options process index dependencies)
      (dependencyMoments options process moments depth index dependencies ctx) := by
  induction dependencies generalizing ctx with
  | nil => exact ⟨h, fun _ hm => absurd hm List.not_mem_nil⟩
  | cons dependency dependencies ih =>
      obtain ⟨hd, hrest⟩ := List.forall_mem_cons.mp hok
      have hone := processDependency_rule hrule hprocess hindex hd h
      constructor
      · have hround := hone.leaves_mono fun moment hm =>
          List.mem_cons_of_mem (⟨depth, index, .dependency dependency, ctx⟩ : GraphMoment P)
            (List.mem_append_left (afterOk (ctx.processDependency options process index dependency)
              fun _ ctx => dependencyMoments options process moments depth index dependencies ctx)
              hm)
        refine hround.andThen_of_eq fun _ ctx' heq hctx => (ih hrest hctx).leaves_mono ?_
        intro moment hm
        exact List.mem_cons_of_mem _
          (List.mem_append_right _ (mem_afterOk.mpr ⟨_, ctx', heq, hm⟩))
      · intro moment hm
        rcases List.mem_cons.mp hm with rfl | hm
        · exact h
        rcases List.mem_append.mp hm with hm | hm
        · exact hone.moments moment hm
        · obtain ⟨_, ctx', heq, hm⟩ := mem_afterOk.mp hm
          have hctx := hone.leaves
          rw [heq] at hctx
          exact (ih hrest hctx).moments moment hm

/-- **What every step keeps holds throughout a run**, and a run that fails does so
in a step of the rule or in a load. -/
theorem processObject_rule (hrule : ProcessRule options I F J) (levels depth index : ℕ)
    (requireDynamic : Bool) (h : I ctx) :
    Follows options I F (processObject options levels index requireDynamic ctx)
      (processMoments options levels depth index requireDynamic ctx) := by
  induction levels generalizing depth index requireDynamic ctx with
  | zero =>
      refine ⟨?_, fun _ hm => absurd hm List.not_mem_nil⟩
      rw [processObject]
      split
      · exact h
      · rename_i hstate
        exact .inl (hrule.tooDeep h (not_not.mp hstate))
  | succ levels ih =>
      rw [processObject, processMoments]
      split
      · exact ⟨h, fun _ hm => absurd hm List.not_mem_nil⟩
      rename_i hstate
      have hstate := not_not.mp hstate
      have hindex := hrule.discovered h hstate
      have hbegun := hrule.begun h hstate
      generalize ctx.setState index .loading = ctx₀ at hbegun ⊢
      have hprocess : ∀ target ctx, I ctx →
          Follows options I F (processObject options levels target true ctx)
            (processMoments options levels (depth + 1) target true ctx) :=
        fun target ctx hctx => ih (depth + 1) target true hctx
      -- step by step; a step that fails ends the run and its moments
      rcases hload : ctx₀.loadAt options index requireDynamic with ⟨_ | _, ctx₁⟩
      · rename_i failure
        exact ⟨.inr ⟨_, List.mem_cons_self, requireDynamic, failure, rfl, hload, rfl⟩,
          List.forall_mem_cons.mpr ⟨hbegun, fun _ hm => absurd hm List.not_mem_nil⟩⟩
      have h₁ := hrule.loaded hbegun hindex hload
      have h₂ := hrule.inspected h₁ hindex
      rcases hinspect : ctx₁.inspectAt options index with ⟨_ | _, ctx₂⟩
      · rw [hinspect] at h₂
        simp only [andThen, afterOk, hinspect]
        exact ⟨.inl h₂, List.forall_mem_cons.mpr ⟨hbegun, List.forall_mem_cons.mpr
          ⟨h₁, fun _ hm => absurd hm List.not_mem_nil⟩⟩⟩
      rw [hinspect] at h₂
      have h₃ := hrule.acquired h₂ hindex
      rcases hacquire : ctx₂.acquireAt options index with ⟨_ | dependencies, ctx₃⟩
      · rw [hacquire] at h₃
        simp only [andThen, afterOk, hinspect, hacquire]
        exact ⟨.inl h₃, List.forall_mem_cons.mpr ⟨hbegun, List.forall_mem_cons.mpr
          ⟨h₁, List.forall_mem_cons.mpr ⟨h₂, fun _ hm => absurd hm List.not_mem_nil⟩⟩⟩⟩
      rw [hacquire] at h₃
      have hloop := processDependencies_rule hrule hprocess hindex depth h₃.2 h₃.1
      simp only [andThen, afterOk, hinspect, hacquire]
      have hwide := hloop.leaves_mono fun moment hm =>
        List.mem_cons_of_mem (⟨depth, index, .load requireDynamic, ctx₀⟩ : GraphMoment P)
          (List.mem_cons_of_mem (⟨depth, index, .inspect, ctx₁⟩ : GraphMoment P)
            (List.mem_cons_of_mem (⟨depth, index, .acquire, ctx₂⟩ : GraphMoment P) hm))
      exact ⟨hwide.andThen fun _ ctx' hctx => hrule.ended hctx hindex,
        List.forall_mem_cons.mpr ⟨hbegun, List.forall_mem_cons.mpr ⟨h₁,
          List.forall_mem_cons.mpr ⟨h₂, hloop.moments⟩⟩⟩⟩

end Rule

/-! ### Failed loads end a run -/

section Loads

variable {options : Elf32DependencyLoadOptions}

/-- Every load of the moments succeeds, or the run ends with it. -/
def LoadsOrEnds (options : Elf32DependencyLoadOptions)
    (run : Except Elf32DependencyLoadFailure Unit × GraphLoadContext P)
    (moments : List (GraphMoment P)) : Prop :=
  ∀ moment ∈ moments, ∀ requireDynamic, moment.stage = .load requireDynamic →
    Leaves (fun _ _ => True)
      (fun failure ctx => ∃ failure', run = (.error failure', ctx)
        ∧ failure'.error = failure.error)
      (moment.ctx.loadAt options moment.index requireDynamic)

lemma LoadsOrEnds.nil {run : Except Elf32DependencyLoadFailure Unit × GraphLoadContext P} :
    LoadsOrEnds options run [] := fun _ hm => absurd hm List.not_mem_nil

/-- A moment before something other than a load. -/
lemma LoadsOrEnds.cons {run : Except Elf32DependencyLoadFailure Unit × GraphLoadContext P}
    {moment : GraphMoment P} {moments : List (GraphMoment P)}
    (hstage : ∀ requireDynamic, moment.stage ≠ .load requireDynamic)
    (h : LoadsOrEnds options run moments) : LoadsOrEnds options run (moment :: moments) := by
  intro other hm requireDynamic hload
  rcases List.mem_cons.mp hm with rfl | hm
  · exact absurd hload (hstage requireDynamic)
  · exact h other hm requireDynamic hload

/-- The end of a run is changed in the name of the failure at most. -/
lemma LoadsOrEnds.map {run run' : Except Elf32DependencyLoadFailure Unit × GraphLoadContext P}
    {moments : List (GraphMoment P)} (h : LoadsOrEnds options run moments)
    (hrun : ∀ failure ctx, run = (.error failure, ctx) →
      ∃ failure', run' = (.error failure', ctx) ∧ failure'.error = failure.error) :
    LoadsOrEnds options run' moments := by
  intro moment hm requireDynamic hload
  refine (h moment hm requireDynamic hload).mono (fun _ _ _ => trivial) ?_
  rintro failure ctx ⟨failure', hend, herror⟩
  obtain ⟨failure'', hend', herror'⟩ := hrun failure' ctx hend
  exact ⟨failure'', hend', herror'.trans herror⟩

lemma LoadsOrEnds.nameFailure {nested : Except Elf32DependencyLoadFailure Unit × GraphLoadContext P}
    {moments : List (GraphMoment P)} {requestedName : ByteString}
    (h : LoadsOrEnds options nested moments) :
    LoadsOrEnds options (nameFailure requestedName nested) moments := by
  refine h.map ?_
  rintro failure ctx rfl
  refine ⟨_, rfl, ?_⟩
  split <;> rfl

lemma LoadsOrEnds.andThen {run : Except Elf32DependencyLoadFailure Unit × GraphLoadContext P}
    {moments : List (GraphMoment P)}
    {f : Unit → GraphLoadContext P → Except Elf32DependencyLoadFailure Unit × GraphLoadContext P}
    (h : LoadsOrEnds options run moments) : LoadsOrEnds options (andThen run f) moments := by
  refine h.map ?_
  rintro failure ctx rfl
  exact ⟨failure, rfl, rfl⟩

lemma processDependencies_loadsOrEnds
    {process : ℕ → GraphLoadContext P →
      Except Elf32DependencyLoadFailure Unit × GraphLoadContext P}
    {moments : ℕ → GraphLoadContext P → List (GraphMoment P)}
    (hprocess : ∀ target ctx, LoadsOrEnds options (process target ctx) (moments target ctx))
    (depth index : ℕ) (dependencies : List Elf32ResolvedDependency) (ctx : GraphLoadContext P) :
    LoadsOrEnds options (ctx.processDependencies options process index dependencies)
      (dependencyMoments options process moments depth index dependencies ctx) := by
  induction dependencies generalizing ctx with
  | nil => exact .nil
  | cons dependency dependencies ih =>
      have hround := dependencyRound options process index dependency ctx
      have hone : LoadsOrEnds options (ctx.processDependency options process index dependency)
          ((nestedCall options index dependency ctx).elim [] fun call =>
            moments call.1 call.2) := by
        generalize nestedCall options index dependency ctx = nested at hround ⊢
        generalize ctx.processDependency options process index dependency = result at hround ⊢
        cases hround with
        | mismatch => exact .nil
        | reused => exact .nil
        | resumed => exact (hprocess _ _).nameFailure
        | full => exact .nil
        | added => exact (hprocess _ _).nameFailure
      refine .cons (fun _ => nofun) fun moment hm => ?_
      rw [processDependencies]
      rcases List.mem_append.mp hm with hm | hm
      · exact hone.andThen moment hm
      · obtain ⟨_, ctx', heq, hm⟩ := mem_afterOk.mp hm
        rw [heq]
        exact ih ctx' moment hm

/-- **A run ends with the first load that fails.** -/
theorem processObject_loadsOrEnds [Elf32DependencyProvider P] (levels depth index : ℕ)
    (requireDynamic : Bool)
    (ctx : GraphLoadContext P) :
    LoadsOrEnds options (processObject options levels index requireDynamic ctx)
      (processMoments options levels depth index requireDynamic ctx) := by
  induction levels generalizing depth index requireDynamic ctx with
  | zero => exact .nil
  | succ levels ih =>
      rw [processObject, processMoments]
      split
      · exact .nil
      generalize ctx.setState index .loading = ctx₀
      intro moment hm requireDynamic' hstage
      rcases hload : ctx₀.loadAt options index requireDynamic with ⟨failure | _, ctx₁⟩
      · rw [hload] at hm
        cases List.mem_singleton.mp hm
        cases hstage
        rw [hload]
        exact ⟨failure, rfl, rfl⟩
      rw [hload] at hm
      rcases List.mem_cons.mp hm with rfl | hm
      · cases hstage
        rw [hload]
        trivial
      -- the moments after the load
      have hrest : LoadsOrEnds options
          (andThen (ctx₁.inspectAt options index) fun _ ctx =>
            andThen (ctx.acquireAt options index) fun dependencies ctx =>
              andThen (processDependencies options
                  (fun target ctx => processObject options levels target true ctx) index
                  dependencies ctx)
                fun _ ctx => (.ok (), ctx.setState index .loaded))
          (⟨depth, index, .inspect, ctx₁⟩ :: afterOk (ctx₁.inspectAt options index) fun _ ctx =>
            ⟨depth, index, .acquire, ctx⟩ ::
              afterOk (ctx.acquireAt options index) fun dependencies ctx =>
                dependencyMoments options
                  (fun target ctx => processObject options levels target true ctx)
                  (fun target ctx => processMoments options levels (depth + 1) target true ctx)
                  depth index dependencies ctx) := by
        refine .cons (fun _ => nofun) ?_
        rcases ctx₁.inspectAt options index with ⟨_ | _, ctx₂⟩
        · exact .nil
        refine .cons (fun _ => nofun) ?_
        rcases hacquire : ctx₂.acquireAt options index with ⟨_ | dependencies, ctx₃⟩
        · exact .nil
        simp only [Foundations.andThen, afterOk, hacquire]
        exact (processDependencies_loadsOrEnds (fun target ctx => ih (depth + 1) target true ctx)
          depth index dependencies ctx₃).andThen
      exact hrest moment hm requireDynamic' hstage

end Loads

/-! ### The loads of the moments -/

end GraphLoadContext

/-- The load that is made at a moment, if one is and it succeeds. -/
def GraphMoment.loads {P : Type} (options : Elf32DependencyLoadOptions) (moment : GraphMoment P) :
    List Elf32LoadResult :=
  match moment.stage with
  | .load requireDynamic =>
    match (loadObject moment.ctx.memory (moment.ctx.object moment.index) options
        requireDynamic).1 with
    | .ok load => [load]
    | .error _ => []
  | _ => []

namespace GraphLoadContext

section MomentLoads

variable {P : Type} {options : Elf32DependencyLoadOptions}

lemma loadAt_loads (options : Elf32DependencyLoadOptions) (depth index : ℕ) (requireDynamic : Bool)
    (ctx : GraphLoadContext P) :
    (ctx.loadAt options index requireDynamic).2.successfulLoads = ctx.successfulLoads
      ++ (⟨depth, index, .load requireDynamic, ctx⟩ : GraphMoment P).loads options := by
  simp only [loadAt, GraphMoment.loads]
  rcases loadObject ctx.memory (ctx.object index) options requireDynamic with ⟨_ | _, _⟩
  · exact (List.append_nil _).symm
  · rfl

lemma acquireAt_loads [Elf32DependencyProvider P] (options : Elf32DependencyLoadOptions)
    (index : ℕ) (ctx : GraphLoadContext P) :
    (ctx.acquireAt options index).2.successfulLoads = ctx.successfulLoads := by
  simp only [acquireAt]
  repeat' split
  all_goals rfl

lemma processDependencies_loads
    {process : ℕ → GraphLoadContext P →
      Except Elf32DependencyLoadFailure Unit × GraphLoadContext P}
    {moments : ℕ → GraphLoadContext P → List (GraphMoment P)}
    (hprocess : ∀ target ctx, (process target ctx).2.successfulLoads
      = ctx.successfulLoads ++ (moments target ctx).flatMap (·.loads options))
    (depth index : ℕ) (dependencies : List Elf32ResolvedDependency) (ctx : GraphLoadContext P) :
    (ctx.processDependencies options process index dependencies).2.successfulLoads
      = ctx.successfulLoads ++ (dependencyMoments options process moments depth index dependencies
          ctx).flatMap (·.loads options) := by
  have hnamed : ∀ (name : ByteString) target ctx,
      (nameFailure name (process target ctx)).2.successfulLoads
        = ctx.successfulLoads ++ (moments target ctx).flatMap (·.loads options) := by
    intro name target ctx
    rw [← hprocess]
    rcases process target ctx with ⟨_ | _, _⟩ <;> rfl
  induction dependencies generalizing ctx with
  | nil => exact (List.append_nil _).symm
  | cons dependency dependencies ih =>
      have hround := dependencyRound options process index dependency ctx
      have hone : (ctx.processDependency options process index dependency).2.successfulLoads
          = ctx.successfulLoads ++ ((nestedCall options index dependency ctx).elim [] fun call =>
            moments call.1 call.2).flatMap (·.loads options) := by
        generalize nestedCall options index dependency ctx = nested at hround ⊢
        generalize ctx.processDependency options process index dependency = result at hround ⊢
        cases hround with
        | mismatch => exact (List.append_nil _).symm
        | reused => exact (List.append_nil _).symm
        | resumed => exact hnamed _ _ _
        | full => exact (List.append_nil _).symm
        | added => exact hnamed _ _ _
      rw [processDependencies, dependencyMoments, List.flatMap_cons, List.flatMap_append,
        GraphMoment.loads, List.nil_append]
      rcases hresult : ctx.processDependency options process index dependency with ⟨_ | _, ctx'⟩
      · rw [hresult] at hone
        simpa [andThen, afterOk] using hone
      · rw [hresult] at hone
        have hrest := ih ctx'
        rw [hone, List.append_assoc] at hrest
        exact hrest

/-- **The loads of a run are those made at its moments**, in order. -/
theorem processObject_loads [Elf32DependencyProvider P] (options : Elf32DependencyLoadOptions)
    (levels depth index : ℕ) (requireDynamic : Bool) (ctx : GraphLoadContext P) :
    (processObject options levels index requireDynamic ctx).2.successfulLoads
      = ctx.successfulLoads ++ (processMoments options levels depth index requireDynamic
          ctx).flatMap (·.loads options) := by
  induction levels generalizing depth index requireDynamic ctx with
  | zero =>
      rw [processObject, processMoments]
      split <;> exact (List.append_nil _).symm
  | succ levels ih =>
      rw [processObject, processMoments]
      split
      · exact (List.append_nil _).symm
      have hload := loadAt_loads options depth index requireDynamic (ctx.setState index .loading)
      rw [List.flatMap_cons, ← List.append_assoc]
      change _ = (ctx.setState index .loading).successfulLoads ++ _ ++ _
      rw [← hload]
      rcases (ctx.setState index .loading).loadAt options index requireDynamic with ⟨_ | _, ctx₁⟩
      · exact (List.append_nil _).symm
      simp only [andThen, afterOk]
      rw [List.flatMap_cons, GraphMoment.loads, List.nil_append]
      have hinspect : (ctx₁.inspectAt options index).2.successfulLoads = ctx₁.successfulLoads := rfl
      rw [← hinspect]
      rcases ctx₁.inspectAt options index with ⟨_ | _, ctx₂⟩
      · exact (List.append_nil _).symm
      simp only
      rw [List.flatMap_cons, GraphMoment.loads, List.nil_append]
      have hacquire := acquireAt_loads options index ctx₂
      rw [← hacquire]
      rcases ctx₂.acquireAt options index with ⟨_ | dependencies, ctx₃⟩
      · exact (List.append_nil _).symm
      have hloop := processDependencies_loads (fun target ctx => ih (depth + 1) target true ctx)
        depth index dependencies ctx₃
      simp only
      rw [← hloop]
      rcases ctx₃.processDependencies options
        (fun target => processObject options levels target true) index dependencies
        with ⟨_ | _, ctx₄⟩ <;> rfl

end MomentLoads

/-! ### Depth -/

lemma dependencyMoments_depth {options : Elf32DependencyLoadOptions}
    {process : ℕ → GraphLoadContext P →
      Except Elf32DependencyLoadFailure Unit × GraphLoadContext P}
    {moments : ℕ → GraphLoadContext P → List (GraphMoment P)} {depth index limit : ℕ}
    (hdepth : depth < limit)
    (hmoments : ∀ target ctx, ∀ moment ∈ moments target ctx, moment.depth < limit)
    (dependencies : List Elf32ResolvedDependency) (ctx : GraphLoadContext P) :
    ∀ moment ∈ dependencyMoments options process moments depth index dependencies ctx,
      moment.depth < limit := by
  induction dependencies generalizing ctx with
  | nil => exact fun _ hm => absurd hm List.not_mem_nil
  | cons dependency dependencies ih =>
      intro moment hm
      rcases List.mem_cons.mp hm with rfl | hm
      · exact hdepth
      rcases List.mem_append.mp hm with hm | hm
      · cases hcall : nestedCall options index dependency ctx with
        | none =>
            rw [hcall] at hm
            exact absurd hm List.not_mem_nil
        | some call =>
            rw [hcall] at hm
            exact hmoments call.1 call.2 moment hm
      · obtain ⟨_, ctx', -, hm⟩ := mem_afterOk.mp hm
        exact ih ctx' moment hm

/-- The levels bound the depth of every moment. -/
lemma processMoments_depth [Elf32DependencyProvider P] {options : Elf32DependencyLoadOptions}
    (levels depth index : ℕ) (requireDynamic : Bool) (ctx : GraphLoadContext P) :
    ∀ moment ∈ processMoments options levels depth index requireDynamic ctx,
      moment.depth < depth + levels := by
  induction levels generalizing depth index requireDynamic ctx with
  | zero => exact fun _ hm => absurd hm List.not_mem_nil
  | succ levels ih =>
      have hlt : depth < depth + (levels + 1) := by omega
      rw [processMoments]
      split
      · exact fun _ hm => absurd hm List.not_mem_nil
      intro moment hm
      rcases List.mem_cons.mp hm with rfl | hm
      · exact hlt
      obtain ⟨_, ctx₁, -, hm⟩ := mem_afterOk.mp hm
      rcases List.mem_cons.mp hm with rfl | hm
      · exact hlt
      obtain ⟨_, ctx₂, -, hm⟩ := mem_afterOk.mp hm
      rcases List.mem_cons.mp hm with rfl | hm
      · exact hlt
      obtain ⟨dependencies, ctx₃, -, hm⟩ := mem_afterOk.mp hm
      refine dependencyMoments_depth hlt (fun target ctx moment hm => ?_) dependencies ctx₃ moment
        hm
      have := ih (depth + 1) target true ctx moment hm
      omega

end GraphLoadContext

end LibA32Android
