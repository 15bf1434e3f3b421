/-
A program that carries the outcomes of another one.

Under a fixed oracle, `p'` carries `p` when each value of `p` has a related value
of `p'`, and each error of `p` of the kind `K` is an error of `p'` too.  Where `p`
ends in another error nothing is asked of `p'`, which may get further.

* `Carries`, with one rule for each way of building programs; `reject_bind` is the
  rule for a check that `p'` makes less strictly;
* `Carries.under_eq`: settled outcomes are the same, if values are related by
  equality.
-/
import LibA32Android.Foundations.QueryProgram

namespace Foundations

open QueryProgram

/-- Under the oracle `o`, the values of `p` are related to values of `p'`, and its
errors of the kind `K` are those of `p'`. -/
structure Carries {Q R ε α β : Type} (o : Q → Option R) (K : ε → Prop) (S : α → β → Prop)
    (p : QueryProgram Q R ε α) (p' : QueryProgram Q R ε β) : Prop where
  ok : ∀ a, p.under o = .ok a → ∃ b, p'.under o = .ok b ∧ S a b
  error : ∀ e, p.under o = .error e → K e → p'.under o = .error e

namespace Carries

variable {Q R ε ε' α α' β β' γ : Type} {o : Q → Option R} {K : ε → Prop} {S : α → α' → Prop}
  {T : β → β' → Prop}

/-- Related by equality, a settled outcome is the outcome of both. -/
lemma under_eq {p p' : QueryProgram Q R ε α} (h : Carries o K Eq p p')
    (hsettled : Settled K (p.under o)) : p'.under o = p.under o := by
  cases hp : p.under o with
  | ok a =>
      obtain ⟨b, hb, rfl⟩ := h.ok a hp
      exact hb
  | error e => exact h.error e hp (hsettled e hp)

lemma refl (p : QueryProgram Q R ε α) : Carries o K Eq p p :=
  ⟨fun a ha => ⟨a, ha, rfl⟩, fun _ he _ => he⟩

lemma mono {K' : ε → Prop} {p : QueryProgram Q R ε α} {p' : QueryProgram Q R ε α'}
    (hp : Carries o K S p p') (h : ∀ e, K' e → K e) : Carries o K' S p p' :=
  ⟨hp.ok, fun e he hK => hp.error e he (h e hK)⟩

lemma pure {a : α} {a' : α'} (h : S a a') :
    Carries o K S (Pure.pure a : QueryProgram Q R ε α) (Pure.pure a') :=
  ⟨fun _ hb => ⟨a', rfl, Except.ok.inj hb ▸ h⟩, fun _ he => nomatch he⟩

/-- After an error of another kind anything may come. -/
lemma fail {e : ε} (he : ¬K e) (p' : QueryProgram Q R ε α') :
    Carries o K S (QueryProgram.fail e) p' :=
  ⟨fun _ ha => (nomatch ha), fun _ he' hK => absurd (Except.error.inj he' ▸ hK) he⟩

lemma ite {c : Prop} [Decidable c] {p q : QueryProgram Q R ε α} {p' q' : QueryProgram Q R ε α'}
    (hp : c → Carries o K S p p') (hq : ¬c → Carries o K S q q') :
    Carries o K S (if c then p else q) (if c then p' else q') := by
  split
  · exact hp ‹_›
  · exact hq ‹_›

/-- Sequencing. -/
lemma bind {p : QueryProgram Q R ε α} {p' : QueryProgram Q R ε α'}
    {f : α → QueryProgram Q R ε β} {f' : α' → QueryProgram Q R ε β'} (hp : Carries o K S p p')
    (hf : ∀ a a', p.under o = .ok a → S a a' → Carries o K T (f a) (f' a')) :
    Carries o K T (p >>= f) (p' >>= f') := by
  constructor
  · intro b hb
    rw [under_bind, bind_ok_iff] at hb
    obtain ⟨a, ha, hb⟩ := hb
    obtain ⟨a', ha', hS⟩ := hp.ok a ha
    rw [under_bind, ha']
    exact (hf a a' ha hS).ok b hb
  · intro e he hK
    rw [under_bind, bind_error_iff] at he
    rw [under_bind]
    rcases he with he | ⟨a, ha, he⟩
    · rw [hp.error e he hK]
      rfl
    · obtain ⟨a', ha', hS⟩ := hp.ok a ha
      rw [ha']
      exact (hf a a' ha hS).error e he hK

/-- Sequencing after equal values. -/
lemma bind_eq {p p' : QueryProgram Q R ε α} {f : α → QueryProgram Q R ε β}
    {f' : α → QueryProgram Q R ε β'} (hp : Carries o K Eq p p')
    (hf : ∀ a, p.under o = .ok a → Carries o K T (f a) (f' a)) :
    Carries o K T (p >>= f) (p' >>= f') :=
  bind hp fun a _ ha heq => heq ▸ hf a ha

/-- Sequencing after the same program. -/
lemma bind_same {p : QueryProgram Q R ε α} {f : α → QueryProgram Q R ε β}
    {f' : α → QueryProgram Q R ε β'} (hf : ∀ a, p.under o = .ok a → Carries o K T (f a) (f' a)) :
    Carries o K T (p >>= f) (p >>= f') :=
  bind_eq (refl p) hf

/-- A check that refuses no more than the original, whose error is of another
kind. -/
lemma reject_bind {bad bad' : Prop} [Decidable bad] [Decidable bad'] {e e' : ε}
    {f : Unit → QueryProgram Q R ε β} {f' : Unit → QueryProgram Q R ε β'} (he : ¬K e)
    (h : bad' → bad) (hf : ¬bad → Carries o K T (f ()) (f' ())) :
    Carries o K T (reject bad e >>= f) (reject bad' e' >>= f') := by
  by_cases hbad : bad
  · rw [reject, if_pos hbad]
    exact fail he _
  · rw [reject, reject, if_neg hbad, if_neg (mt h hbad)]
    exact hf hbad

lemma mapError {K' : ε' → Prop} {g : ε → ε'} {p : QueryProgram Q R ε α}
    {p' : QueryProgram Q R ε α'} (hp : Carries o (fun e => K' (g e)) S p p') :
    Carries o K' S (p.mapError g) (p'.mapError g) := by
  constructor
  · intro a ha
    rw [under_mapError, mapError_ok_iff] at ha
    obtain ⟨a', ha', hS⟩ := hp.ok a ha
    exact ⟨a', by rw [under_mapError, ha']; rfl, hS⟩
  · intro e he hK
    rw [under_mapError] at he ⊢
    cases hpo : p.under o with
    | ok a =>
        rw [hpo] at he
        exact nomatch he
    | error d =>
        rw [hpo] at he
        obtain rfl : g d = e := Except.error.inj he
        rw [hp.error d hpo hK]
        rfl

/-- Handing over an outcome, when each error that may change leads to an error of
another kind. -/
lemma attempt_bind {K' : ε' → Prop} {p p' : QueryProgram Q R ε α}
    {f : Except ε α → QueryProgram Q R ε' β} (hp : Carries o K Eq p p')
    (hother : ∀ e q, ¬K e → Carries o K' Eq (f (.error e)) q) :
    Carries o K' Eq (p.attempt >>= f) (p'.attempt >>= f) := by
  have hsame (hsettled : Settled K (p.under o)) :
      (p'.attempt >>= f).under o = (p.attempt >>= f).under o := by
    rw [under_bind, under_bind, under_attempt, under_attempt, hp.under_eq hsettled]
  by_cases hsettled : Settled K (p.under o)
  · exact ⟨fun b hb => ⟨b, (hsame hsettled).trans hb, rfl⟩, fun e he _ => (hsame hsettled).trans he⟩
  · rw [Settled] at hsettled
    push Not at hsettled
    obtain ⟨e, he, hK⟩ := hsettled
    have hrun : (p.attempt >>= f).under o = (f (.error e)).under o := by
      rw [under_bind, under_attempt, he]
      rfl
    have hcarries := hother e (p'.attempt >>= f) hK
    exact ⟨fun b hb => hcarries.ok b (hrun ▸ hb), fun d hd => hcarries.error d (hrun ▸ hd)⟩

lemma foldlM {f f' : γ → α → QueryProgram Q R ε γ} (hf : ∀ c a, Carries o K Eq (f c a) (f' c a))
    (l : List α) (c : γ) : Carries o K Eq (l.foldlM f c) (l.foldlM f' c) := by
  induction l generalizing c with
  | nil => exact refl _
  | cons a l ih =>
      rw [List.foldlM_cons, List.foldlM_cons]
      exact bind_eq (hf c a) fun d _ => ih d

end Carries

end Foundations
