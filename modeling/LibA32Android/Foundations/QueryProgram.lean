/-
Programs that query a partial oracle.

A program asks its oracle a finite number of questions, one after the other,
and ends in a value or in an error; an oracle may leave a question unanswered,
and the program then goes on with `none`.  Read-only code over a memory is
such a program, the questions being its reads.

* `QueryProgram.under`: the outcome of a program under an oracle;
* `QueryProgram.asked`: the questions it asks on the way, and `under_congr_asked`:
  the outcome depends on the answers to these only;
* `Settled K`: the outcomes that are values, or errors of the kind `K`;
* `Stable K`: a program whose settled outcomes survive every extension of the
  oracle, because an unanswered question leads to an error of another kind; there
  is one rule for each way of building programs.
-/
import LibA32Android.Foundations.Checks

namespace Foundations

/-- A program over questions `Q` with answers in `R`, errors in `ε` and values
in `α`. -/
inductive QueryProgram (Q R ε α : Type) where
  | done (a : α)
  | fail (e : ε)
  | ask (q : Q) (next : Option R → QueryProgram Q R ε α)

namespace QueryProgram

variable {Q R ε ε' α β : Type}

/-- Sequencing: an error ends the program. -/
def bind : QueryProgram Q R ε α → (α → QueryProgram Q R ε β) → QueryProgram Q R ε β
  | done a, f => f a
  | fail e, _ => fail e
  | ask q next, f => ask q fun r => (next r).bind f

instance : Monad (QueryProgram Q R ε) where
  pure := done
  bind := bind

/-- The program that asks one question and returns the answer. -/
def query (q : Q) : QueryProgram Q R ε (Option R) := ask q done

/-- Handing over the outcome of a program, error or not, as a value. -/
def attempt : QueryProgram Q R ε α → QueryProgram Q R ε' (Except ε α)
  | done a => done (.ok a)
  | fail e => done (.error e)
  | ask q next => ask q fun r => (next r).attempt

/-- Renaming the errors of a program. -/
def mapError (f : ε → ε') : QueryProgram Q R ε α → QueryProgram Q R ε' α
  | done a => done a
  | fail e => fail (f e)
  | ask q next => ask q fun r => (next r).mapError f

/-- A check inside a program: fail with `e` when `bad` holds. -/
def reject (bad : Prop) [Decidable bad] (e : ε) : QueryProgram Q R ε Unit :=
  if bad then fail e else done ()

/-- A computation that asks nothing. -/
def ofExcept : Except ε α → QueryProgram Q R ε α
  | .ok a => done a
  | .error e => fail e

/-- The programs of a list, one after the other, and the list of their values. -/
def collect (f : α → QueryProgram Q R ε β) : List α → QueryProgram Q R ε (List β)
  | [] => done []
  | a :: l => do
    let b ← f a
    let rest ← collect f l
    return b :: rest

/-- The outcome of a program under an oracle. -/
def under (o : Q → Option R) : QueryProgram Q R ε α → Except ε α
  | done a => .ok a
  | fail e => .error e
  | ask q next => (next (o q)).under o

/-! ### Outcomes of compound programs -/

variable (o : Q → Option R)

@[simp] lemma under_pure (a : α) :
    (pure a : QueryProgram Q R ε α).under o = .ok a := rfl

@[simp] lemma under_done (a : α) :
    (done a : QueryProgram Q R ε α).under o = .ok a := rfl

@[simp] lemma under_fail (e : ε) :
    (fail e : QueryProgram Q R ε α).under o = .error e := rfl

@[simp] lemma under_query (q : Q) :
    (query q : QueryProgram Q R ε (Option R)).under o = .ok (o q) := rfl

@[simp] lemma under_bind (p : QueryProgram Q R ε α) (f : α → QueryProgram Q R ε β) :
    (p >>= f).under o = (p.under o >>= fun a => (f a).under o) := by
  show (p.bind f).under o = _
  induction p with
  | done a => rfl
  | fail e => rfl
  | ask q next ih => exact ih (o q)

@[simp] lemma under_attempt (p : QueryProgram Q R ε α) :
    (p.attempt : QueryProgram Q R ε' (Except ε α)).under o = .ok (p.under o) := by
  induction p with
  | done a => rfl
  | fail e => rfl
  | ask q next ih => exact ih (o q)

@[simp] lemma under_mapError (f : ε → ε') (p : QueryProgram Q R ε α) :
    (p.mapError f).under o = (p.under o).mapError f := by
  induction p with
  | done a => rfl
  | fail e => rfl
  | ask q next ih => exact ih (o q)

@[simp] lemma under_ite (c : Prop) [Decidable c] (p p' : QueryProgram Q R ε α) :
    (if c then p else p').under o = if c then p.under o else p'.under o := by
  split <;> rfl

@[simp] lemma under_reject (bad : Prop) [Decidable bad] (e : ε) :
    (reject bad e : QueryProgram Q R ε Unit).under o = refuse bad e := by
  rw [reject, refuse]
  split <;> rfl

@[simp] lemma under_ofExcept (x : Except ε α) :
    (ofExcept x : QueryProgram Q R ε α).under o = x := by
  cases x with
  | ok a => rfl
  | error e => rfl

lemma under_forM (f : α → QueryProgram Q R ε PUnit) (l : List α) :
    (l.forM f).under o = l.forM fun a => (f a).under o := by
  induction l with
  | nil => rfl
  | cons a l ih =>
      change (f a >>= fun _ => l.forM f).under o = _
      rw [under_bind, ih]
      rfl

lemma under_foldlM (f : β → α → QueryProgram Q R ε β) (l : List α) (b : β) :
    (l.foldlM f b).under o = l.foldlM (fun b a => (f b a).under o) b := by
  induction l generalizing b with
  | nil => rfl
  | cons a l ih =>
      rw [List.foldlM_cons, List.foldlM_cons, under_bind]
      simp only [ih]

lemma collect_under_eq_ok {f : α → QueryProgram Q R ε β} {l : List α} {out : List β} :
    (collect f l).under o = .ok out ↔ List.Forall₂ (fun a b => (f a).under o = .ok b) l out := by
  induction l generalizing out with
  | nil => simp [collect, eq_comm]
  | cons a l ih =>
      simp only [collect, under_bind, bind_ok_iff, under_pure, Except.ok.injEq,
        List.forall₂_cons_left_iff]
      constructor
      · rintro ⟨b, hb, rest, hrest, rfl⟩
        exact ⟨b, rest, hb, ih.mp hrest, rfl⟩
      · rintro ⟨b, rest, hb, hrest, rfl⟩
        exact ⟨b, hb, rest, ih.mpr hrest, rfl⟩

/-! ### The questions of a program -/

/-- The questions that a program asks under an oracle, in order. -/
def asked (o : Q → Option R) : QueryProgram Q R ε α → List Q
  | done _ => []
  | fail _ => []
  | ask q next => q :: (next (o q)).asked o

/-- **The outcome depends on the answers to the questions asked only.** -/
lemma under_congr_asked {o o' : Q → Option R} {p : QueryProgram Q R ε α}
    (h : ∀ q ∈ p.asked o, o' q = o q) : p.under o' = p.under o := by
  induction p with
  | done a => rfl
  | fail e => rfl
  | ask q next ih =>
      rw [under, under, h q List.mem_cons_self]
      exact ih (o q) fun q' hq' => h q' (List.mem_cons_of_mem q hq')

lemma mem_asked_bind {p : QueryProgram Q R ε α} {f : α → QueryProgram Q R ε β} {q : Q} :
    q ∈ (p >>= f).asked o ↔ q ∈ p.asked o ∨ ∃ a, p.under o = .ok a ∧ q ∈ (f a).asked o := by
  show q ∈ (p.bind f).asked o ↔ _
  induction p with
  | done a => simp [bind, asked, under]
  | fail e => simp [bind, asked, under]
  | ask q' next ih =>
      rw [bind, asked, asked, List.mem_cons, List.mem_cons, ih (o q'), or_assoc]
      rfl

@[simp] lemma asked_mapError (f : ε → ε') (p : QueryProgram Q R ε α) :
    (p.mapError f).asked o = p.asked o := by
  induction p with
  | done a => rfl
  | fail e => rfl
  | ask q next ih => rw [mapError, asked, asked, ih (o q)]

@[simp] lemma asked_reject (bad : Prop) [Decidable bad] (e : ε) :
    (reject bad e : QueryProgram Q R ε Unit).asked o = [] := by
  rw [reject]
  split <;> rfl

/-- A refusal asks nothing, so the questions are those of what follows it. -/
lemma mem_asked_reject_bind {bad : Prop} [Decidable bad] {e : ε}
    {next : Unit → QueryProgram Q R ε α} {q : Q} :
    q ∈ (reject bad e >>= next).asked o ↔ ¬bad ∧ q ∈ (next ()).asked o := by
  rw [mem_asked_bind, asked_reject, or_iff_right List.not_mem_nil, under_reject]
  constructor
  · rintro ⟨⟨⟩, hpassed, h⟩
    exact ⟨refuse_ok_iff.mp hpassed, h⟩
  · rintro ⟨hbad, h⟩
    exact ⟨(), refuse_ok_iff.mpr hbad, h⟩

end QueryProgram

/-! ### Outcomes that survive extensions -/

/-- The oracle `o'` answers whatever `o` answers, and in the same way. -/
def Extends {Q R : Type} (o o' : Q → Option R) : Prop :=
  ∀ q r, o q = some r → o' q = some r

/-- A value, or an error of the kind `K`. -/
def Settled {ε α : Type} (K : ε → Prop) (x : Except ε α) : Prop := ∀ e, x = .error e → K e

section Settled

variable {ε α β : Type} {K : ε → Prop}

lemma settled_ok (a : α) : Settled K (.ok a) := fun _ h => nomatch h

@[simp] lemma settled_error {e : ε} : Settled K (.error e : Except ε α) ↔ K e :=
  ⟨fun h => h e rfl, fun h _ he => Except.error.inj he ▸ h⟩

/-- A settled outcome of a sequence has a settled first part. -/
lemma Settled.of_bind {x : Except ε α} {f : α → Except ε β} (h : Settled K (x >>= f)) :
    Settled K x := by
  rintro e rfl
  exact h e rfl

lemma Settled.bind {x : Except ε α} {f : α → Except ε β} (hx : Settled K x)
    (hf : ∀ a, x = .ok a → Settled K (f a)) : Settled K (x >>= f) := by
  cases x with
  | error e => exact settled_error.mpr (settled_error.mp hx)
  | ok a => exact hf a rfl

lemma Settled.mono {K' : ε → Prop} {x : Except ε α} (hx : Settled K x) (h : ∀ e, K e → K' e) :
    Settled K' x :=
  fun e he => h e (hx e he)

lemma settled_mapError {ε' : Type} {K' : ε' → Prop} {f : ε → ε'} {x : Except ε α}
    (hx : Settled (fun e => K' (f e)) x) : Settled K' (x.mapError f) := by
  cases x with
  | error e => exact settled_error.mpr (hx e rfl)
  | ok a => exact settled_ok a

lemma settled_refuse {bad : Prop} [Decidable bad] {e : ε} (h : bad → K e) :
    Settled K (refuse bad e) := by
  intro e' he'
  obtain ⟨hbad, rfl⟩ := refuse_eq_error.mp he'
  exact h hbad

/-- A check that cannot fail this way, and the rest. -/
lemma Settled.refuse_bind {bad : Prop} [Decidable bad] {e : ε} {f : Unit → Except ε β}
    (h : bad → K e) (hf : ¬bad → Settled K (f ())) : Settled K (refuse bad e >>= f) :=
  (settled_refuse h).bind fun _ hok => hf (refuse_ok_iff.mp hok)

lemma Settled.foldlM {f : β → α → Except ε β} (hf : ∀ b a, Settled K (f b a)) (l : List α)
    (b : β) : Settled K (l.foldlM f b) := by
  induction l generalizing b with
  | nil => exact settled_ok b
  | cons a l ih =>
      rw [List.foldlM_cons]
      exact (hf b a).bind fun b' _ => ih b'

lemma Settled.forM {f : α → Except ε Unit} (hf : ∀ a, Settled K (f a)) (l : List α) :
    Settled K (l.forM f) := by
  induction l with
  | nil => exact settled_ok ()
  | cons a l ih => exact (hf a).bind fun _ _ => ih

end Settled

/-- The settled outcomes of a program survive every extension of the oracle. -/
def Stable {Q R ε α : Type} (K : ε → Prop) (p : QueryProgram Q R ε α) : Prop :=
  ∀ o o' : Q → Option R, Extends o o' → Settled K (p.under o) → p.under o' = p.under o

namespace Stable

open QueryProgram

variable {Q R ε ε' α β γ : Type} {K : ε → Prop}

lemma mono {K' : ε → Prop} {p : QueryProgram Q R ε α} (hp : Stable K p) (h : ∀ e, K' e → K e) :
    Stable K' p :=
  fun o o' hext hs => hp o o' hext fun e he => h e (hs e he)

/-- A program without settled outcomes. -/
lemma of_unsettled {p : QueryProgram Q R ε α} (h : ∀ o, ¬Settled K (p.under o)) : Stable K p :=
  fun o _ _ hs => absurd hs (h o)

lemma done (a : α) : Stable K (QueryProgram.done a : QueryProgram Q R ε α) :=
  fun _ _ _ _ => rfl

lemma pure (a : α) : Stable K (Pure.pure a : QueryProgram Q R ε α) := done a

lemma fail (e : ε) : Stable K (QueryProgram.fail e : QueryProgram Q R ε α) :=
  fun _ _ _ _ => rfl

lemma reject (bad : Prop) [Decidable bad] (e : ε) :
    Stable K (QueryProgram.reject bad e : QueryProgram Q R ε Unit) := by
  intro o o' _ _
  rw [under_reject, under_reject]

lemma ofExcept (x : Except ε α) : Stable K (QueryProgram.ofExcept x : QueryProgram Q R ε α) := by
  intro o o' _ _
  rw [under_ofExcept, under_ofExcept]

lemma ite {c : Prop} [Decidable c] {p p' : QueryProgram Q R ε α} (hp : c → Stable K p)
    (hp' : ¬c → Stable K p') : Stable K (if c then p else p') := by
  split
  · exact hp ‹_›
  · exact hp' ‹_›

/-- Sequencing. -/
lemma bind {p : QueryProgram Q R ε α} {f : α → QueryProgram Q R ε β} (hp : Stable K p)
    (hf : ∀ a, Stable K (f a)) : Stable K (p >>= f) := by
  intro o o' hext h
  rw [under_bind] at h ⊢
  rw [under_bind, hp o o' hext h.of_bind]
  cases hpo : p.under o with
  | ok a =>
      rw [hpo] at h
      exact hf a o o' hext h
  | error e => rfl

/-- A question whose continuation ends in an error of another kind when it is left
unanswered. -/
lemma ask {q : Q} {next : Option R → QueryProgram Q R ε α}
    (hnone : ∀ o, ¬Settled K ((next none).under o)) (hsome : ∀ r, Stable K (next (some r))) :
    Stable K (QueryProgram.ask q next) := by
  intro o o' hext h
  change Settled K ((next (o q)).under o) at h
  change (next (o' q)).under o' = (next (o q)).under o
  cases hq : o q with
  | none =>
      rw [hq] at h
      exact absurd h (hnone o)
  | some r =>
      rw [hq] at h
      rw [hext q r hq]
      exact hsome r o o' hext h

/-- Handing over an outcome, when the errors that may change lead to an error of
another kind. -/
lemma attempt_bind {K' : ε' → Prop} {p : QueryProgram Q R ε α}
    {f : Except ε α → QueryProgram Q R ε' β} (hp : Stable K p)
    (hother : ∀ e, ¬K e → ∀ o, ¬Settled K' ((f (.error e)).under o))
    (hf : ∀ x, Stable K' (f x)) : Stable K' (p.attempt >>= f) := by
  intro o o' hext h
  simp only [under_bind, under_attempt] at h ⊢
  have hsettled : Settled K (p.under o) := by
    intro e he
    by_contra hK
    rw [he] at h
    exact hother e hK o h
  rw [hp o o' hext hsettled]
  exact hf _ o o' hext h

lemma mapError {K' : ε' → Prop} {f : ε → ε'} {p : QueryProgram Q R ε α}
    (hp : Stable (fun e => K' (f e)) p) : Stable K' (p.mapError f) := by
  intro o o' hext h
  rw [under_mapError] at h ⊢
  rw [under_mapError, hp o o' hext]
  intro e he
  rw [he] at h
  exact h (f e) rfl

lemma forM {f : α → QueryProgram Q R ε PUnit} {l : List α} (hf : ∀ a ∈ l, Stable K (f a)) :
    Stable K (l.forM f) := by
  induction l with
  | nil => exact pure _
  | cons a l ih =>
      exact bind (hf a List.mem_cons_self) fun _ =>
        ih fun b hb => hf b (List.mem_cons_of_mem a hb)

lemma foldlM {f : β → α → QueryProgram Q R ε β} (hf : ∀ b a, Stable K (f b a)) (l : List α)
    (b : β) : Stable K (l.foldlM f b) := by
  induction l generalizing b with
  | nil => exact pure _
  | cons a l ih => exact bind (hf b a) ih

end Stable

end Foundations
