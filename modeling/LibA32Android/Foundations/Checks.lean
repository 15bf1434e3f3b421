/-
Sequences of checks: code that refuses an input with the error of the first
test it fails.

* `refuse bad e`: one test, in the polarity in which such code is written;
* `Except.bind_ok_iff`, `refuse_ok_iff`: a sequence succeeds exactly when each
  part does;
* `foldlM_ok_induction`: what holds before a fallible loop and is kept by each
  successful step on the items done so far holds after it;
* `foldlM_ok_iff`: the same as an equivalence, when the accumulator is a function
  of the items done;
* `foldlM_filter_of_skip`, `foldlM_perm`: rounds of a fallible loop that may be left out
  or change places;
* `stepAll`: a loop of steps that may fail but leave a state either way, and
  its invariant rule `stepAll_induction`;
* `andThen`: sequencing of steps that fail with an error and leave a state, and
  `Leaves`, the postcondition of such a step, with its rule for sequencing;
* `afterOk`: what is observed after a step of this kind;
* `pairwise_of_neighbours`: a transitive relation checked on neighbours holds
  between any two entries.
-/
import Mathlib

namespace Foundations

variable {ε α β : Type}

/-- Refuse with `e` when `bad` holds. -/
def refuse (bad : Prop) [Decidable bad] (e : ε) : Except ε Unit :=
  if bad then .error e else .ok ()

@[simp] lemma refuse_ok_iff {bad : Prop} [Decidable bad] {e : ε} {u : Unit} :
    refuse bad e = .ok u ↔ ¬bad := by
  by_cases h : bad <;> simp [refuse, h]

lemma refuse_eq_error {bad : Prop} [Decidable bad] {e e' : ε} :
    refuse bad e = .error e' ↔ bad ∧ e = e' := by
  by_cases h : bad <;> simp [refuse, h]

lemma refuse_pos {bad : Prop} [Decidable bad] {e : ε} (h : bad) : refuse bad e = .error e :=
  if_pos h

lemma refuse_neg {bad : Prop} [Decidable bad] {e : ε} (h : ¬bad) : refuse bad e = .ok () :=
  if_neg h

@[simp] lemma refuse_true [Decidable True] (e : ε) : refuse True e = .error e := refuse_pos trivial

@[simp] lemma refuse_false [Decidable False] (e : ε) : refuse False e = .ok () := refuse_neg id

@[simp] lemma ok_bind (a : α) (f : α → Except ε β) : (Except.ok a >>= f) = f a := rfl

@[simp] lemma error_bind (e : ε) (f : α → Except ε β) :
    ((Except.error e : Except ε α) >>= f) = .error e := rfl

lemma bind_ok_iff {x : Except ε α} {f : α → Except ε β} {b : β} :
    (x >>= f) = .ok b ↔ ∃ a, x = .ok a ∧ f a = .ok b := by
  cases x with
  | error e => simp [bind, Except.bind]
  | ok a => simp [bind, Except.bind]

lemma bind_error_iff {x : Except ε α} {f : α → Except ε β} {e : ε} :
    (x >>= f) = .error e ↔ x = .error e ∨ ∃ a, x = .ok a ∧ f a = .error e := by
  cases x with
  | error e => simp [bind, Except.bind]
  | ok a => simp [bind, Except.bind]

/-- Two sequences whose first parts agree, and whose second parts agree on the
value of the first. -/
lemma bind_congr_ok {x y : Except ε α} {f g : α → Except ε β} (hxy : x = y)
    (h : ∀ a, x = .ok a → f a = g a) : (x >>= f) = (y >>= g) := by
  subst hxy
  cases x with
  | error e => rfl
  | ok a => exact h a rfl

lemma mapError_ok_iff {ε' : Type} {x : Except ε α} {f : ε → ε'} {a : α} :
    x.mapError f = .ok a ↔ x = .ok a := by
  cases x with
  | error e => simp [Except.mapError]
  | ok a => simp [Except.mapError]

lemma mapError_bind {ε' : Type} (x : Except ε α) (f : α → Except ε β) (g : ε → ε') :
    (x >>= f).mapError g = x.mapError g >>= fun a => (f a).mapError g := by
  cases x <;> rfl

lemma mapError_refuse {ε' : Type} (bad : Prop) [Decidable bad] (e : ε) (g : ε → ε') :
    (refuse bad e).mapError g = refuse bad (g e) := by
  rw [refuse, refuse]
  split <;> rfl

/-- Two tests with one error. -/
lemma refuse_or (bad bad' : Prop) [Decidable bad] [Decidable bad'] (e : ε) :
    refuse (bad ∨ bad') e = refuse bad e >>= fun _ => refuse bad' e := by
  by_cases h : bad <;> by_cases h' : bad' <;> simp [refuse, h, h']

/-- A loop whose rounds rename the errors of another loop's rounds. -/
lemma foldlM_mapError {ε' : Type} {f : β → α → Except ε β} {f' : β → α → Except ε' β}
    {g : ε → ε'} {l : List α} (h : ∀ b, ∀ a ∈ l, f' b a = (f b a).mapError g) {b : β} :
    l.foldlM f' b = (l.foldlM f b).mapError g := by
  induction l generalizing b with
  | nil => rfl
  | cons a l ih =>
      rw [List.foldlM_cons, List.foldlM_cons, h b a List.mem_cons_self, mapError_bind]
      congr 1
      exact funext fun b' => ih fun b a ha => h b a (List.mem_cons_of_mem _ ha)

/-- A check before the rest of a sequence. -/
@[simp] lemma refuse_bind_ok_iff {bad : Prop} [Decidable bad] {e : ε} {f : Unit → Except ε β}
    {b : β} : (refuse bad e >>= f) = .ok b ↔ ¬bad ∧ f () = .ok b := by
  by_cases h : bad <;> simp [refuse, h, bind, Except.bind]

/-- A loop of checks passes when every check does. -/
lemma forM_ok_iff {f : α → Except ε Unit} {l : List α} {u : Unit} :
    l.forM f = .ok u ↔ ∀ a ∈ l, f a = .ok () := by
  induction l with
  | nil => exact ⟨fun _ _ ha => absurd ha List.not_mem_nil, fun _ => rfl⟩
  | cons a l ih =>
      change (f a >>= fun _ => l.forM f) = .ok u ↔ _
      rw [bind_ok_iff, List.forall_mem_cons, ← ih]
      exact ⟨fun ⟨_, h1, h2⟩ => ⟨h1, h2⟩, fun ⟨h1, h2⟩ => ⟨(), h1, h2⟩⟩

/-- A fallible map whose items are checked and then converted. -/
lemma mapM_ok_iff {f : α → Except ε β} {ok : α → Prop} {g : α → β}
    (hf : ∀ a b, f a = .ok b ↔ ok a ∧ b = g a) {l : List α} {r : List β} :
    l.mapM f = .ok r ↔ (∀ a ∈ l, ok a) ∧ r = l.map g := by
  induction l generalizing r with
  | nil =>
      rw [List.mapM_nil]
      exact ⟨fun h => by cases h; simp, fun h => by rw [h.2]; rfl⟩
  | cons a l ih =>
      rw [List.mapM_cons, bind_ok_iff]
      simp only [bind_ok_iff, hf, ih, List.forall_mem_cons, List.map_cons]
      constructor
      · rintro ⟨b, ⟨hok, rfl⟩, bs, ⟨hall, rfl⟩, h⟩
        cases h
        exact ⟨⟨hok, hall⟩, rfl⟩
      · rintro ⟨⟨hok, hall⟩, rfl⟩
        exact ⟨_, ⟨hok, rfl⟩, _, ⟨hall, rfl⟩, rfl⟩

/-- A fallible map succeeds when it does on every item. -/
lemma mapM_ok_of_forall {f : α → Except ε β} {l : List α} (h : ∀ a ∈ l, ∃ b, f a = .ok b) :
    ∃ r, l.mapM f = .ok r := by
  induction l with
  | nil => exact ⟨[], rfl⟩
  | cons a l ih =>
      obtain ⟨b, hb⟩ := h a (by simp)
      obtain ⟨r, hr⟩ := ih fun a' ha' => h a' (List.mem_cons_of_mem a ha')
      exact ⟨b :: r, by rw [List.mapM_cons, hb, hr]; rfl⟩

/-- A fallible map item by item. -/
lemma mapM_ok_iff_forall₂ {f : α → Except ε β} {l : List α} {r : List β} :
    l.mapM f = .ok r ↔ List.Forall₂ (fun a b => f a = .ok b) l r := by
  induction l generalizing r with
  | nil =>
      rw [List.mapM_nil, List.forall₂_nil_left_iff]
      exact ⟨fun h => (Except.ok.inj h).symm, fun h => by rw [h]; rfl⟩
  | cons a l ih =>
      rw [List.mapM_cons, bind_ok_iff, List.forall₂_cons_left_iff]
      constructor
      · rintro ⟨b, hb, h⟩
        obtain ⟨rest, hrest, h⟩ := bind_ok_iff.mp h
        cases h
        exact ⟨b, rest, hb, ih.mp hrest, rfl⟩
      · rintro ⟨b, rest, hb, hrest, rfl⟩
        exact ⟨b, hb, bind_ok_iff.mpr ⟨rest, ih.mpr hrest, rfl⟩⟩

/-- A fallible map fails with the error of an item. -/
lemma exists_of_mapM_error {f : α → Except ε β} {l : List α} {e : ε} (h : l.mapM f = .error e) :
    ∃ a ∈ l, f a = .error e := by
  induction l with
  | nil => cases h
  | cons a l ih =>
      rw [List.mapM_cons, bind_error_iff] at h
      rcases h with h | ⟨b, -, h⟩
      · exact ⟨a, List.mem_cons_self, h⟩
      · rcases bind_error_iff.mp h with h | ⟨rest, -, h⟩
        · obtain ⟨a', ha', h⟩ := ih h
          exact ⟨a', List.mem_cons_of_mem a ha', h⟩
        · cases h

/-- Two lists that correspond to a third one item by item. -/
lemma forall₂_comp {γ : Type} {S : α → β → Prop} {T : β → γ → Prop} {l : List α} {m : List β}
    {n : List γ} (h : List.Forall₂ S l m) (h' : List.Forall₂ T m n) :
    List.Forall₂ (fun a c => ∃ b, S a b ∧ T b c) l n := by
  induction h generalizing n with
  | nil =>
      cases h'
      exact .nil
  | cons hab _ ih =>
      cases h' with
      | cons hbc hrest => exact .cons ⟨_, hab, hbc⟩ (ih hrest)

lemma exists_of_forall₂_right {S : α → β → Prop} {l : List α} {m : List β}
    (h : List.Forall₂ S l m) {b : β} (hb : b ∈ m) : ∃ a ∈ l, S a b := by
  induction h with
  | nil => exact absurd hb List.not_mem_nil
  | cons hab _ ih =>
      rcases List.mem_cons.mp hb with rfl | hb
      · exact ⟨_, List.mem_cons_self, hab⟩
      · obtain ⟨a, ha, h⟩ := ih hb
        exact ⟨a, List.mem_cons_of_mem _ ha, h⟩

/-- A fallible loop passes when each of its rounds does. -/
lemma foldlM_ok_of_forall {f : β → α → Except ε β} {l : List α}
    (h : ∀ b, ∀ a ∈ l, ∃ b', f b a = .ok b') (b : β) : ∃ r, l.foldlM f b = .ok r := by
  induction l generalizing b with
  | nil => exact ⟨b, rfl⟩
  | cons a l ih =>
      obtain ⟨b', hb'⟩ := h b a List.mem_cons_self
      rw [List.foldlM_cons, hb', ok_bind]
      exact ih (fun b a' ha' => h b a' (List.mem_cons_of_mem a ha')) b'

/-- Rounds that leave the accumulator of a fallible loop alone may be left out. -/
lemma foldlM_filter_of_skip {f : β → α → Except ε β} {p : α → Bool} {l : List α}
    (h : ∀ a ∈ l, p a = false → ∀ b, f b a = .ok b) (b : β) :
    (l.filter p).foldlM f b = l.foldlM f b := by
  induction l generalizing b with
  | nil => rfl
  | cons a l ih =>
      have hrest := ih fun a' ha' => h a' (List.mem_cons_of_mem a ha')
      cases hp : p a with
      | true =>
          rw [List.filter_cons_of_pos hp, List.foldlM_cons, List.foldlM_cons]
          exact congrArg (f b a >>= ·) (funext hrest)
      | false =>
          rw [List.filter_cons_of_neg (by simp [hp]), List.foldlM_cons,
            h a List.mem_cons_self hp, ok_bind, hrest]

/-- A fallible loop whose rounds may change places does not depend on their order. -/
lemma foldlM_perm {f : β → α → Except ε β} {l l' : List α} (hperm : l.Perm l')
    (hcomm : ∀ a ∈ l, ∀ a' ∈ l, ∀ b,
      (f b a >>= fun b => f b a') = (f b a' >>= fun b => f b a)) (b : β) :
    l.foldlM f b = l'.foldlM f b := by
  rw [List.foldlM_eq_foldl, List.foldlM_eq_foldl]
  refine hperm.foldl_eq' (fun a ha a' ha' x => ?_) _
  cases x with
  | error e => rfl
  | ok b => exact hcomm a ha a' ha' b

/-- The invariant rule of a fallible loop, the invariant being about the items
done so far and the accumulator. -/
lemma foldlM_ok_induction {f : β → α → Except ε β} (I : List α → β → Prop)
    (hstep : ∀ done b a b', I done b → f b a = .ok b' → I (done ++ [a]) b') :
    ∀ (l done : List α) (b r : β), I done b → l.foldlM f b = .ok r → I (done ++ l) r := by
  intro l
  induction l with
  | nil =>
      intro done b r hb h
      rw [List.foldlM_nil] at h
      cases h
      simpa using hb
  | cons a l ih =>
      intro done b r hb h
      rw [List.foldlM_cons, bind_ok_iff] at h
      obtain ⟨b', h1, h2⟩ := h
      have h3 := ih (done ++ [a]) b' r (hstep done b a b' hb h1) h2
      rwa [List.append_assoc, List.singleton_append] at h3

/-- A fallible loop whose accumulator is a function `D` of the items done: it
passes when each item is accepted after the ones before it. -/
lemma foldlM_ok_iff {f : β → α → Except ε β} {D : List α → β} {ok : List α → α → Prop}
    (hf : ∀ done a b, f (D done) a = .ok b ↔ ok done a ∧ b = D (done ++ [a])) {l : List α} {r : β} :
    l.foldlM f (D []) = .ok r
      ↔ (∀ done a rest, l = done ++ a :: rest → ok done a) ∧ r = D l := by
  induction l using List.reverseRecOn generalizing r with
  | nil =>
      rw [List.foldlM_nil]
      refine ⟨fun h => ?_, fun h => h.2 ▸ rfl⟩
      cases h
      exact ⟨fun done a rest h => absurd h (by simp), rfl⟩
  | append_singleton l a ih =>
      rw [List.foldlM_append, bind_ok_iff]
      simp only [ih, List.foldlM_cons, List.foldlM_nil, bind_pure]
      constructor
      · rintro ⟨b, ⟨hall, rfl⟩, hlast⟩
        obtain ⟨hok, rfl⟩ := (hf l a r).mp hlast
        refine ⟨fun done a' rest h => ?_, rfl⟩
        rcases List.eq_nil_or_concat' rest with rfl | ⟨rest, b, rfl⟩
        · obtain ⟨rfl, hlast'⟩ := List.append_inj' h rfl
          cases hlast'
          exact hok
        · rw [← List.cons_append, ← List.append_assoc] at h
          exact hall done a' rest (List.append_inj' h rfl).1
      · rintro ⟨hall, rfl⟩
        refine ⟨D l, ⟨fun done a' rest h => hall done a' (rest ++ [a]) ?_, rfl⟩, ?_⟩
        · rw [h, List.append_assoc, List.cons_append]
        · exact (hf l a _).mpr ⟨hall l a [] rfl, rfl⟩

/-- A relation that each entry has to the ones before it. -/
lemma pairwise_iff_split {R : α → α → Prop} {l : List α} :
    l.Pairwise R ↔ ∀ done a rest, l = done ++ a :: rest → ∀ b ∈ done, R b a := by
  constructor
  · rintro h done a rest rfl b hb
    exact (List.pairwise_append.mp h).2.2 b hb a List.mem_cons_self
  · intro h
    induction l using List.reverseRecOn with
    | nil => exact .nil
    | append_singleton l a ih =>
        rw [List.pairwise_append]
        refine ⟨ih fun done b rest hl => h done b (rest ++ [a]) ?_, List.pairwise_singleton _ _, ?_⟩
        · rw [hl, List.append_assoc, List.cons_append]
        · intro b hb a' ha'
          rw [List.mem_singleton.mp ha']
          exact h l a [] rfl b hb

/-! ### Loops over a state -/

/-- Do the step for each item until one fails; a failing step leaves a state
too. -/
def stepAll {σ : Type} (step : σ → α → Bool × σ) : List α → σ → Bool × σ
  | [], s => (true, s)
  | a :: l, s =>
    match step s a with
    | (false, s') => (false, s')
    | (true, s') => stepAll step l s'

/-- The invariant rule of such a loop: `I` is about the items done so far and
the state, `F` is what a failing step leaves. -/
lemma stepAll_induction {σ : Type} {step : σ → α → Bool × σ} (I : List α → σ → Prop)
    (F : σ → Prop) {l : List α}
    (hok : ∀ done a rest s s', l = done ++ a :: rest → I done s → step s a = (true, s') →
      I (done ++ [a]) s')
    (hfail : ∀ done a rest s s', l = done ++ a :: rest → I done s → step s a = (false, s') →
      F s') {s : σ} (hs : I [] s) :
    (∀ s', stepAll step l s = (true, s') → I l s')
      ∧ (∀ s', stepAll step l s = (false, s') → F s') := by
  suffices h : ∀ (rest done : List α) (s : σ), l = done ++ rest → I done s →
      (∀ s', stepAll step rest s = (true, s') → I l s')
        ∧ (∀ s', stepAll step rest s = (false, s') → F s') from h l [] s rfl hs
  intro rest
  induction rest with
  | nil =>
      intro done s hl hI
      refine ⟨fun s' h => ?_, fun s' h => ?_⟩
      · cases h
        rwa [hl, List.append_nil]
      · cases h
  | cons a rest ih =>
      intro done s hl hI
      rw [stepAll]
      cases hstep : step s a with
      | mk ok s₁ =>
          cases ok with
          | false =>
              refine ⟨fun s' h => ?_, fun s' h => ?_⟩
              · cases h
              · cases h
                exact hfail done a rest s s₁ hl hI hstep
          | true => exact ih (done ++ [a]) s₁ (by simp [hl]) (hok done a rest s s₁ hl hI hstep)

/-- The loop succeeds when each step does, from every state that satisfies the
invariant. -/
lemma stepAll_succeeds {σ : Type} {step : σ → α → Bool × σ} (I : List α → σ → Prop) {l : List α}
    (hok : ∀ done a rest s, l = done ++ a :: rest → I done s →
      ∃ s', step s a = (true, s') ∧ I (done ++ [a]) s') {s : σ} (hs : I [] s) :
    ∃ s', stepAll step l s = (true, s') ∧ I l s' := by
  suffices h : ∀ (rest done : List α) (s : σ), l = done ++ rest → I done s →
      ∃ s', stepAll step rest s = (true, s') ∧ I (done ++ rest) s' from h l [] s rfl hs
  intro rest
  induction rest with
  | nil => exact fun done s _ hI => ⟨s, rfl, by rwa [List.append_nil]⟩
  | cons a rest ih =>
      intro done s hl hI
      obtain ⟨s₁, hstep, hI₁⟩ := hok done a rest s hl hI
      obtain ⟨s', hrun, hI'⟩ := ih (done ++ [a]) s₁ (by simp [hl]) hI₁
      refine ⟨s', ?_, by simpa using hI'⟩
      rw [stepAll, hstep]
      exact hrun

/-! ### Steps that fail and leave a state -/

/-- Go on with the value of a step, or stop with its error; the state is kept
either way. -/
def andThen {σ : Type} (x : Except ε α × σ) (f : α → σ → Except ε β × σ) : Except ε β × σ :=
  match x with
  | (.error e, s) => (.error e, s)
  | (.ok a, s) => f a s

lemma andThen_ok_iff {σ : Type} {x : Except ε α × σ} {f : α → σ → Except ε β × σ} {b : β}
    {s' : σ} : andThen x f = (.ok b, s') ↔ ∃ a s, x = (.ok a, s) ∧ f a s = (.ok b, s') := by
  obtain ⟨r, s⟩ := x
  cases r with
  | error e => simp [andThen]
  | ok a => simp [andThen]

/-- What a step leaves: `Q` of its value and state when it succeeds, `F` of its
error and state when it fails. -/
def Leaves {σ : Type} (Q : α → σ → Prop) (F : ε → σ → Prop) : Except ε α × σ → Prop
  | (.ok a, s) => Q a s
  | (.error e, s) => F e s

lemma Leaves.andThen_of_eq {σ : Type} {Q : α → σ → Prop} {R : β → σ → Prop} {F : ε → σ → Prop}
    {x : Except ε α × σ} {f : α → σ → Except ε β × σ} (hx : Leaves Q F x)
    (hf : ∀ a s, x = (.ok a, s) → Q a s → Leaves R F (f a s)) : Leaves R F (andThen x f) := by
  obtain ⟨r, s⟩ := x
  cases r with
  | error e => exact hx
  | ok a => exact hf a s rfl hx

lemma Leaves.andThen {σ : Type} {Q : α → σ → Prop} {R : β → σ → Prop} {F : ε → σ → Prop}
    {x : Except ε α × σ} {f : α → σ → Except ε β × σ} (hx : Leaves Q F x)
    (hf : ∀ a s, Q a s → Leaves R F (f a s)) : Leaves R F (andThen x f) :=
  hx.andThen_of_eq fun a s _ => hf a s

lemma Leaves.mono {σ : Type} {Q R : α → σ → Prop} {F G : ε → σ → Prop} {x : Except ε α × σ}
    (hx : Leaves Q F x) (hQ : ∀ a s, Q a s → R a s) (hF : ∀ e s, F e s → G e s) :
    Leaves R G x := by
  obtain ⟨r, s⟩ := x
  cases r with
  | error e => exact hF e s hx
  | ok a => exact hQ a s hx

/-- The same step over another representation of the state. -/
def mapState {σ τ : Type} (φ : σ → τ) (x : Except ε α × σ) : Except ε α × τ := (x.1, φ x.2)

lemma andThen_mapState {σ τ : Type} {φ : σ → τ} {x : Except ε α × σ}
    {f : α → σ → Except ε β × σ} {g : α → τ → Except ε β × τ}
    (h : ∀ a s, g a (φ s) = mapState φ (f a s)) :
    andThen (mapState φ x) g = mapState φ (andThen x f) := by
  obtain ⟨r, s⟩ := x
  cases r with
  | error e => rfl
  | ok a => exact h a s

/-- What a list of observations goes on with after a step that succeeds. -/
def afterOk {σ : Type} (x : Except ε α × σ) (f : α → σ → List β) : List β :=
  match x with
  | (.error _, _) => []
  | (.ok a, s) => f a s

lemma mem_afterOk {σ : Type} {x : Except ε α × σ} {f : α → σ → List β} {b : β} :
    b ∈ afterOk x f ↔ ∃ a s, x = (.ok a, s) ∧ b ∈ f a s := by
  obtain ⟨r, s⟩ := x
  cases r with
  | error e => simp [afterOk]
  | ok a => simp [afterOk]

/-! ### Neighbour checks -/

/-- A transitive relation that holds between neighbours of a list holds between
any two of its entries, in order. -/
lemma pairwise_of_neighbours {R : α → α → Prop} (htrans : ∀ a b c, R a b → R b c → R a c)
    {l : List α} (h : ∀ p ∈ l.zip l.tail, R p.1 p.2) : l.Pairwise R := by
  have : IsTrans α R := ⟨htrans⟩
  rw [← List.isChain_iff_pairwise]
  induction l with
  | nil => exact .nil
  | cons a l ih =>
      cases l with
      | nil => exact .singleton a
      | cons b l =>
          rw [List.isChain_cons_cons]
          exact ⟨h (a, b) (by simp), ih fun p hp => h p (List.mem_cons_of_mem _ hp)⟩

end Foundations
