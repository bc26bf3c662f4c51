import Mathlib.Tactic

/-!
# Actions that may raise

Sequential code that changes a state and may raise, as functions on the state. An exception
leaves the state as it was when it was raised; what rolls back says so itself. `catching` is a
`try`/`except` for a class of exceptions.

`wp x Q` says that `Q` holds of the outcome and the state `x` ends with. The rules take `wp`
through each construct, so that a specification of a function is proved from those of the
functions it calls.
-/

namespace DjangoBoilerplate

universe u v w

/-- An action: from a state, its outcome and the state it leaves. -/
def Act (ε : Type u) (σ : Type v) (α : Type w) : Type (max u v w) := σ → Except ε α × σ

namespace Act

variable {ε : Type u} {σ : Type v} {α β : Type w}

/-- Return a value. -/
def ret (a : α) : Act ε σ α := fun s => (.ok a, s)

/-- Raise an exception. -/
def raise (e : ε) : Act ε σ α := fun s => (.error e, s)

/-- One action after the other. -/
def bind (x : Act ε σ α) (f : α → Act ε σ β) : Act ε σ β := fun s =>
  match x s with
  | (.ok a, t) => f a t
  | (.error e, t) => (.error e, t)

/-- `try: x` with `except` for the exceptions in `catches`. -/
def catching (catches : ε → Bool) (x : Act ε σ α) (handler : ε → Act ε σ α) : Act ε σ α := fun s =>
  match x s with
  | (.ok a, t) => (.ok a, t)
  | (.error e, t) => if catches e then handler e t else (.error e, t)

instance : Monad (Act ε σ) where
  pure := ret
  bind := bind

theorem bind_of_ok {x : Act ε σ α} {f : α → Act ε σ β} {s t : σ} {a : α} (h : x s = (.ok a, t)) :
    bind x f s = f a t := by
  rw [bind, h]

theorem bind_of_error {x : Act ε σ α} {f : α → Act ε σ β} {s t : σ} {e : ε}
    (h : x s = (.error e, t)) : bind x f s = (.error e, t) := by
  rw [bind, h]

section Catching

variable {catches : ε → Bool} {x : Act ε σ α} {handler : ε → Act ε σ α} {s t : σ} {e : ε}

theorem catching_of_ok {a : α} (h : x s = (.ok a, t)) :
    catching catches x handler s = (.ok a, t) := by
  rw [catching, h]

theorem catching_of_caught (h : x s = (.error e, t)) (hcatches : catches e = true) :
    catching catches x handler s = handler e t := by
  rw [catching, h]
  exact if_pos hcatches

theorem catching_of_uncaught (h : x s = (.error e, t)) (hcatches : catches e = false) :
    catching catches x handler s = (.error e, t) := by
  rw [catching, h]
  exact if_neg (by simp [hcatches])

end Catching

/-! ## Specifications -/

/-- `Q` holds of the outcome and of the state the action leaves. -/
def wp (x : Act ε σ α) (Q : Except ε α → σ → Prop) (s : σ) : Prop := Q (x s).1 (x s).2

@[simp] theorem wp_pure {a : α} {Q : Except ε α → σ → Prop} {s : σ} :
    wp (pure a : Act ε σ α) Q s ↔ Q (.ok a) s := Iff.rfl

@[simp] theorem wp_raise {e : ε} {Q : Except ε α → σ → Prop} {s : σ} :
    wp (raise e : Act ε σ α) Q s ↔ Q (.error e) s := Iff.rfl

theorem of_wp {x : Act ε σ α} {Q : Except ε α → σ → Prop} {s t : σ} {r : Except ε α}
    (h : x.wp Q s) (hx : x s = (r, t)) : Q r t := by
  rw [wp, hx] at h
  exact h

/-- The rule of consequence. -/
theorem wp_mono {x : Act ε σ α} {Q R : Except ε α → σ → Prop} {s : σ} (h : x.wp Q s)
    (himp : ∀ r t, Q r t → R r t) : x.wp R s :=
  himp _ _ h

/-- The rule of sequencing. -/
theorem wp_bind {x : Act ε σ α} {f : α → Act ε σ β} {R : Except ε α → σ → Prop}
    {Q : Except ε β → σ → Prop} {s : σ} (hx : x.wp R s)
    (hok : ∀ a t, R (.ok a) t → (f a).wp Q t) (herror : ∀ e t, R (.error e) t → Q (.error e) t) :
    (x >>= f).wp Q s := by
  change (bind x f).wp Q s
  rcases hs : x s with ⟨e | a, t⟩
  · rw [wp, bind_of_error hs]
    exact herror e t (of_wp hx hs)
  · rw [wp, bind_of_ok hs]
    exact hok a t (of_wp hx hs)

/-- The rule of `try`/`except`. -/
theorem wp_catching {catches : ε → Bool} {x : Act ε σ α} {handler : ε → Act ε σ α}
    {R Q : Except ε α → σ → Prop} {s : σ} (hx : x.wp R s)
    (hok : ∀ a t, R (.ok a) t → Q (.ok a) t)
    (hcaught : ∀ e t, R (.error e) t → catches e = true → (handler e).wp Q t)
    (hraised : ∀ e t, R (.error e) t → catches e = false → Q (.error e) t) :
    (catching catches x handler).wp Q s := by
  rcases hs : x s with ⟨e | a, t⟩
  · cases hcatches : catches e with
    | true =>
      rw [wp, catching_of_caught hs hcatches]
      exact hcaught e t (of_wp hx hs) hcatches
    | false =>
      rw [wp, catching_of_uncaught hs hcatches]
      exact hraised e t (of_wp hx hs) hcatches
  · rw [wp, catching_of_ok hs]
    exact hok a t (of_wp hx hs)

end Act

end DjangoBoilerplate
