import Mathlib.Order.Defs.Unbundled
import Mathlib.Tactic.Common

/-!
# Procedures

A procedure runs on a state; it returns a value or raises, and either way it
leaves a state behind. What it committed before it raised stays.

## Main definitions

- `Process` — procedures, with `Process.raise` and `Process.handle`
- `Process.RaisesOnly` — what a procedure can raise from a state
- `Process.Keeps` — a relation between the states before and after every run
- `Process.Ends` — where a procedure ends, by a return or by an exception
- `Process.Wp` — what holds of every end, with what is returned or raised
-/

/-- A procedure on states `σ` that returns an `α` or raises an `ε`. -/
def Process (σ ε α : Type) : Type := σ → Except ε α × σ

namespace Process

variable {σ ε α β : Type}

instance : Monad (Process σ ε) where
  pure a s := (.ok a, s)
  bind x f s :=
    match x s with
    | (.ok a, t) => f a t
    | (.error e, t) => (.error e, t)

def raise (e : ε) : Process σ ε α := fun s => (.error e, s)

/-- A computation that does not touch the state. -/
def lift (x : Except ε α) : Process σ ε α := fun s => (x, s)

/-- `try x except e: handler e`. -/
def handle (x : Process σ ε α) (handler : ε → Process σ ε α) : Process σ ε α := fun s =>
  match x s with
  | (.ok a, t) => (.ok a, t)
  | (.error e, t) => handler e t

theorem bind_eq {x : Process σ ε α} {f : α → Process σ ε β} {s : σ} :
    (x >>= f) s = match x s with
      | (.ok a, t) => f a t
      | (.error e, t) => (.error e, t) := rfl

@[simp] theorem pure_apply (a : α) (s : σ) : (pure a : Process σ ε α) s = (.ok a, s) := rfl

@[simp] theorem raise_apply (e : ε) (s : σ) : (raise e : Process σ ε α) s = (.error e, s) := rfl

@[simp] theorem lift_apply (x : Except ε α) (s : σ) : (lift x : Process σ ε α) s = (x, s) := rfl

/-- A sequence returns if and only if both parts do. -/
theorem bind_eq_ok {x : Process σ ε α} {f : α → Process σ ε β} {s t : σ} {b : β} :
    (x >>= f) s = (.ok b, t) ↔ ∃ a u, x s = (.ok a, u) ∧ f a u = (.ok b, t) := by
  rw [bind_eq]
  constructor
  · intro h
    split at h
    · rename_i a u hx
      exact ⟨a, u, hx, h⟩
    · exact absurd h (by simp)
  · rintro ⟨a, u, hx, h⟩
    rw [hx]
    exact h

theorem bind_assoc {γ : Type} (x : Process σ ε α) (f : α → Process σ ε β) (g : β → Process σ ε γ) :
    (x >>= f) >>= g = x >>= fun a => f a >>= g := by
  funext s
  simp only [bind_eq]
  cases hx : x s with
  | mk result t =>
    cases result with
    | ok a => rfl
    | error e => rfl

theorem bind_of_ok {x : Process σ ε α} {f : α → Process σ ε β} {s t : σ} {a : α}
    (h : x s = (.ok a, t)) : (x >>= f) s = f a t := by
  rw [bind_eq, h]

-- ════════════════════════════════════════════════════════════════════════
-- Exceptions
-- ════════════════════════════════════════════════════════════════════════

section RaisesOnly

variable {E : ε → Prop}

/-- Whatever the procedure raises from a state is one of `E`. -/
def RaisesOnly (E : ε → Prop) (x : Process σ ε α) (s : σ) : Prop :=
  ∀ e t, x s = (.error e, t) → E e

theorem raisesOnly_of_ok {x : Process σ ε α} {s t : σ} {a : α} (h : x s = (.ok a, t)) :
    RaisesOnly E x s := by
  intro e u he
  rw [h] at he
  exact absurd he (by simp)

theorem raisesOnly_pure (a : α) (s : σ) : RaisesOnly E (pure a : Process σ ε α) s :=
  raisesOnly_of_ok (pure_apply a s)

theorem raisesOnly_raise {e : ε} (h : E e) (s : σ) : RaisesOnly E (raise e : Process σ ε α) s := by
  intro e' t he
  obtain rfl := Except.error.inj (Prod.mk.inj he).1
  exact h

theorem raisesOnly_lift {x : Except ε α} (h : ∀ e, x = .error e → E e) (s : σ) :
    RaisesOnly E (lift x : Process σ ε α) s :=
  fun e _ he => h e (Prod.mk.inj he).1

/-- A sequence raises what its first part does, or what the second one does from
    where the first one returned. -/
theorem RaisesOnly.bind {x : Process σ ε α} {f : α → Process σ ε β} {s : σ}
    (hx : RaisesOnly E x s) (hf : ∀ a t, x s = (.ok a, t) → RaisesOnly E (f a) t) :
    RaisesOnly E (x >>= f) s := by
  intro e u he
  rw [bind_eq] at he
  split at he
  · rename_i a t heq
    exact hf a t heq e u he
  · rename_i e' t heq
    obtain ⟨h, _⟩ := Prod.mk.inj he
    obtain rfl := Except.error.inj h
    exact hx e' t heq

/-- A handled exception is replaced by what the handler raises. -/
theorem raisesOnly_handle {x : Process σ ε α} {handler : ε → Process σ ε α} {s : σ}
    (h : ∀ e t, x s = (.error e, t) → RaisesOnly E (handler e) t) :
    RaisesOnly E (x.handle handler) s := by
  intro e u he
  unfold Process.handle at he
  split at he
  · exact absurd he (by simp)
  · rename_i e' t heq
    exact h e' t heq e u he

end RaisesOnly

-- ════════════════════════════════════════════════════════════════════════
-- Relations that hold of every run
-- ════════════════════════════════════════════════════════════════════════

section Keeps

/-- Every run of the procedure, returned or raised, leads to a related state. -/
def Keeps (R : σ → σ → Prop) (x : Process σ ε α) : Prop := ∀ s, R s (x s).2

variable {R : σ → σ → Prop}

theorem Keeps.of_eq {x : Process σ ε α} (hx : Keeps R x) {s t : σ} {a : Except ε α}
    (h : x s = (a, t)) : R s t := by
  have hs := hx s
  rw [h] at hs
  exact hs

theorem Keeps.mono {R' : σ → σ → Prop} (hR : ∀ s t, R s t → R' s t) {x : Process σ ε α}
    (hx : Keeps R x) : Keeps R' x := fun s => hR _ _ (hx s)

variable [IsPreorder σ R]

theorem keeps_pure (a : α) : Keeps R (pure a : Process σ ε α) := fun s => refl_of R s

theorem keeps_raise (e : ε) : Keeps R (raise e : Process σ ε α) := fun s => refl_of R s

theorem keeps_lift (x : Except ε α) : Keeps R (lift x : Process σ ε α) := fun s => refl_of R s

theorem Keeps.bind {x : Process σ ε α} {f : α → Process σ ε β} (hx : Keeps R x)
    (hf : ∀ a, Keeps R (f a)) : Keeps R (x >>= f) := by
  intro s
  rw [bind_eq]
  split
  · rename_i a t heq
    exact trans_of R (hx.of_eq heq) (hf a t)
  · rename_i e t heq
    exact hx.of_eq heq

theorem Keeps.handle {x : Process σ ε α} {handler : ε → Process σ ε α} (hx : Keeps R x)
    (hhandler : ∀ e, Keeps R (handler e)) : Keeps R (x.handle handler) := by
  intro s
  unfold Process.handle
  split
  · rename_i a t heq
    exact hx.of_eq heq
  · rename_i e t heq
    exact trans_of R (hx.of_eq heq) (hhandler e t)

end Keeps

-- ════════════════════════════════════════════════════════════════════════
-- Where a procedure ends
-- ════════════════════════════════════════════════════════════════════════

section Ends

/-- Where a procedure ends from a state, by a return or by an exception. -/
def Ends (x : Process σ ε α) (s : σ) (Q : α → σ → Prop) (E : σ → Prop) : Prop :=
  match x s with
  | (.ok a, t) => Q a t
  | (.error _, t) => E t

variable {Q : α → σ → Prop} {R : β → σ → Prop} {E : σ → Prop} {s : σ}

theorem ends_of_ok {x : Process σ ε α} {a : α} {t : σ} (h : x s = (.ok a, t)) (hQ : Q a t) :
    Ends x s Q E := by
  rw [Ends, h]
  exact hQ

theorem ends_of_error {x : Process σ ε α} {e : ε} {t : σ} (h : x s = (.error e, t)) (hE : E t) :
    Ends x s Q E := by
  rw [Ends, h]
  exact hE

theorem ends_pure {a : α} (h : Q a s) : Ends (pure a : Process σ ε α) s Q E :=
  ends_of_ok rfl h

theorem ends_raise {e : ε} (h : E s) : Ends (raise e : Process σ ε α) s Q E :=
  ends_of_error rfl h

theorem Ends.bind {x : Process σ ε α} {f : α → Process σ ε β} (hx : Ends x s Q E)
    (hf : ∀ a t, Q a t → Ends (f a) t R E) : Ends (x >>= f) s R E := by
  unfold Ends at hx
  split at hx
  · rename_i a t heq
    have h := hf a t hx
    rw [Ends] at h ⊢
    rwa [bind_of_ok heq]
  · rename_i e t heq
    have h : (x >>= f) s = (.error e, t) := by rw [bind_eq, heq]
    exact ends_of_error h hx

theorem Ends.mono {Q' : α → σ → Prop} {E' : σ → Prop} {x : Process σ ε α} (h : Ends x s Q E)
    (hQ : ∀ a t, Q a t → Q' a t) (hE : ∀ t, E t → E' t) : Ends x s Q' E' := by
  unfold Ends at h ⊢
  split at h
  · exact hQ _ _ h
  · exact hE _ h

theorem Ends.handle {x : Process σ ε α} {handler : ε → Process σ ε α} (hx : Ends x s Q E)
    (hhandler : ∀ e t, E t → Ends (handler e) t Q E) : Ends (x.handle handler) s Q E := by
  unfold Ends at hx
  split at hx
  · rename_i a t heq
    have h : x.handle handler s = (.ok a, t) := by rw [Process.handle, heq]
    exact ends_of_ok h hx
  · rename_i e t heq
    have h : x.handle handler s = handler e t := by rw [Process.handle, heq]
    rw [Ends, h]
    exact hhandler e t hx

end Ends

-- ════════════════════════════════════════════════════════════════════════
-- What a procedure returns or raises
-- ════════════════════════════════════════════════════════════════════════

section Wp

/-- The end of the procedure from a state meets `Q`, with what it returns or raises. -/
def Wp (x : Process σ ε α) (s : σ) (Q : Except ε α → σ → Prop) : Prop := Q (x s).1 (x s).2

variable {Q : Except ε α → σ → Prop} {R : Except ε β → σ → Prop} {s : σ}

theorem Wp.of_eq {x : Process σ ε α} (h : x.Wp s Q) {r : Except ε α} {t : σ}
    (hx : x s = (r, t)) : Q r t := by
  rw [Wp, hx] at h
  exact h

theorem Wp.mono {Q' : Except ε α → σ → Prop} {x : Process σ ε α} (h : x.Wp s Q)
    (hQ : ∀ r t, Q r t → Q' r t) : x.Wp s Q' := hQ _ _ h

theorem wp_pure {a : α} (h : Q (.ok a) s) : (pure a : Process σ ε α).Wp s Q := h

theorem wp_raise {e : ε} (h : Q (.error e) s) : (raise e : Process σ ε α).Wp s Q := h

theorem wp_lift {x : Except ε α} (h : Q x s) : (lift x : Process σ ε α).Wp s Q := h

/-- **Sequence rule**: the second part starts where the first one returned; what the
    first one raises is raised. -/
theorem Wp.bind {x : Process σ ε α} {f : α → Process σ ε β} (hx : x.Wp s Q)
    (hok : ∀ a t, Q (.ok a) t → (f a).Wp t R) (herror : ∀ e t, Q (.error e) t → R (.error e) t) :
    (x >>= f).Wp s R := by
  unfold Wp at hx ⊢
  rw [bind_eq]
  split
  · rename_i a t heq
    rw [heq] at hx
    exact hok a t hx
  · rename_i e t heq
    rw [heq] at hx
    exact herror e t hx

end Wp

end Process
