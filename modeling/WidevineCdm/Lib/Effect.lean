import Mathlib

/-!
# Computations that read and write a state and may throw

An exception does not undo the writes made before it, so a run of
`m : EStateM ε σ α` always ends in a state, whether it returned or threw.
`exec m s` is that run as a pair of outcome and final state, and the rules
below are equations for `exec` and the closure under sequencing of four
properties: `Throws E m` (whatever `m` throws satisfies `E`), `Returns a m`
(`m` always returns `a`), `Keeps f m` (`m` does not change the part `f` of the
state) and `Steady m` (the outcome of `m` does not depend on the state it
starts in). All but `Returns` are `Closed`: a proof about a `Closed` property
in general walks through a program once for all of them.

`zoom` runs a computation on one component of a larger state.
-/

namespace WidevineCdm.Lib

variable {ε σ τ α β : Type}

/-- The outcome and the final state of a run. -/
def exec (m : EStateM ε σ α) (s : σ) : Except ε α × σ :=
  match m s with
  | .ok a s' => (.ok a, s')
  | .error e s' => (.error e, s')

/-- Run a computation over `τ` on a component of a `σ`. -/
def zoom (get : σ → τ) (set : τ → σ → σ) (m : EStateM ε τ α) : EStateM ε σ α :=
  fun s =>
    match m (get s) with
    | .ok a t => .ok a (set t s)
    | .error e t => .error e (set t s)

/-! ## Equations for `exec` -/

@[simp] theorem exec_pure (a : α) (s : σ) :
    exec (pure a : EStateM ε σ α) s = (.ok a, s) := rfl

@[simp] theorem exec_throw (e : ε) (s : σ) :
    exec (throw e : EStateM ε σ α) s = (.error e, s) := rfl

@[simp] theorem exec_get (s : σ) :
    exec (get : EStateM ε σ σ) s = (.ok s, s) := rfl

@[simp] theorem exec_modify (f : σ → σ) (s : σ) :
    exec (modify f : EStateM ε σ PUnit) s = (.ok ⟨⟩, f s) := rfl

/-- Sequencing continues after a return and stops at an exception. -/
theorem exec_bind (m : EStateM ε σ α) (f : α → EStateM ε σ β) (s : σ) :
    exec (m >>= f) s =
      match exec m s with
      | (.ok a, s') => exec (f a) s'
      | (.error e, s') => (.error e, s') := by
  show exec (EStateM.bind m f) s = _
  unfold exec EStateM.bind
  cases m s <;> rfl

theorem exec_bind_ok {m : EStateM ε σ α} {f : α → EStateM ε σ β} {s s' : σ} {a : α}
    (h : exec m s = (.ok a, s')) : exec (m >>= f) s = exec (f a) s' := by
  rw [exec_bind, h]

theorem exec_bind_error {m : EStateM ε σ α} {f : α → EStateM ε σ β} {s s' : σ} {e : ε}
    (h : exec m s = (.error e, s')) : exec (m >>= f) s = (.error e, s') := by
  rw [exec_bind, h]

/-- A computation returns if its first step and the rest do. -/
theorem exec_bind_returned {m : EStateM ε σ α} {f : α → EStateM ε σ β} {s s' : σ} {a : α}
    (h : exec m s = (.ok a, s')) (hf : ∃ b s'', exec (f a) s' = (.ok b, s'')) :
    ∃ b s'', exec (m >>= f) s = (.ok b, s'') := by
  rw [exec_bind_ok h]
  exact hf

/-- A handler runs in the state the exception was thrown in. -/
theorem exec_tryCatch (m : EStateM ε σ α) (handle : ε → EStateM ε σ α) (s : σ) :
    exec (tryCatch m handle) s =
      match exec m s with
      | (.ok a, s') => (.ok a, s')
      | (.error e, s') => exec (handle e) s' := by
  show exec (EStateM.tryCatch m handle) s = _
  unfold exec EStateM.tryCatch
  cases m s <;> rfl

theorem exec_zoom (get : σ → τ) (set : τ → σ → σ) (m : EStateM ε τ α) (s : σ) :
    exec (zoom get set m) s = ((exec m (get s)).1, set (exec m (get s)).2 s) := by
  unfold exec zoom
  cases m (get s) <;> rfl

theorem exec_map (f : α → β) (m : EStateM ε σ α) (s : σ) :
    exec (f <$> m) s = ((exec m s).1.map f, (exec m s).2) := by
  show exec (EStateM.map f m) s = _
  unfold exec EStateM.map
  cases m s <;> rfl

@[simp] theorem exec_liftExcept (r : Except ε α) (s : σ) :
    exec (liftExcept r : EStateM ε σ α) s = (r, s) := by
  cases r <;> rfl

/-- A run that returned `b` went through a return of its first half. -/
theorem exec_bind_eq_ok {m : EStateM ε σ α} {f : α → EStateM ε σ β} {s s'' : σ} {b : β} :
    exec (m >>= f) s = (.ok b, s'') ↔
      ∃ a s', exec m s = (.ok a, s') ∧ exec (f a) s' = (.ok b, s'') := by
  rw [exec_bind]
  rcases exec m s with ⟨_ | a, s'⟩ <;> simp

/-! ## Exceptions -/

/-- Whatever `m` throws satisfies `E`. -/
def Throws (E : ε → Prop) (m : EStateM ε σ α) : Prop :=
  ∀ s e s', exec m s = (.error e, s') → E e

variable {E : ε → Prop}

theorem Throws.mono {E E' : ε → Prop} {m : EStateM ε σ α} (h : Throws E m)
    (hE : ∀ e, E e → E' e) : Throws E' m :=
  fun s e s' heq => hE e (h s e s' heq)

theorem throws_pure (a : α) : Throws E (pure a : EStateM ε σ α) := by
  intro s e s' h
  cases h

theorem throws_throw {e : ε} (he : E e) : Throws E (throw e : EStateM ε σ α) := by
  intro s e' s' h
  cases h
  exact he

theorem throws_bind {m : EStateM ε σ α} {f : α → EStateM ε σ β} (hm : Throws E m)
    (hf : ∀ a, Throws E (f a)) : Throws E (m >>= f) := by
  intro s e s' h
  rw [exec_bind] at h
  rcases hr : exec m s with ⟨e' | a, t⟩
  · rw [hr] at h
    obtain ⟨rfl, rfl⟩ : e' = e ∧ t = s' := by simpa using h
    exact hm s e' t hr
  · rw [hr] at h
    exact hf a t e s' h

/-! ## Returns -/

/-- `m` returns `a` from every state. -/
def Returns (a : α) (m : EStateM ε σ α) : Prop := ∀ s, ∃ s', exec m s = (.ok a, s')

theorem returns_pure (a : α) : Returns a (pure a : EStateM ε σ α) := fun s => ⟨s, rfl⟩

theorem returns_modify (g : σ → σ) : Returns ⟨⟩ (modify g : EStateM ε σ PUnit) :=
  fun s => ⟨g s, rfl⟩

theorem returns_bind {m : EStateM ε σ α} {k : α → EStateM ε σ β} {a : α} {b : β}
    (hm : Returns a m) (hk : Returns b (k a)) : Returns b (m >>= k) := by
  intro s
  obtain ⟨s', hs'⟩ := hm s
  rw [exec_bind_ok hs']
  exact hk s'

theorem returns_mapM {γ : Type} {f : γ → EStateM ε σ α} {g : γ → α} {l : List γ}
    (h : ∀ c ∈ l, Returns (g c) (f c)) : Returns (l.map g) (l.mapM f) := by
  induction l with
  | nil => exact returns_pure []
  | cons c cs ih =>
    have hc := h c (List.mem_cons_self ..)
    have hcs := ih fun d hd => h d (List.mem_cons_of_mem _ hd)
    rw [List.mapM_cons]
    exact returns_bind hc (returns_bind hcs (returns_pure _))

/-- `m` returns `a` from some state. -/
def Yields (m : EStateM ε σ α) (a : α) : Prop := ∃ s s', exec m s = (.ok a, s')

theorem yields_of_exec {m : EStateM ε σ α} {a : α} {s s' : σ} (h : exec m s = (.ok a, s')) :
    Yields m a := ⟨s, s', h⟩

/-! ## Parts of the state -/

/-- `m` leaves the part `f` of the state as it was. -/
def Keeps (f : σ → τ) (m : EStateM ε σ α) : Prop := ∀ s, f (exec m s).2 = f s

variable {f : σ → τ}

theorem keeps_pure (a : α) : Keeps f (pure a : EStateM ε σ α) := fun _ => rfl

theorem keeps_throw (e : ε) : Keeps f (throw e : EStateM ε σ α) := fun _ => rfl

theorem keeps_bind {m : EStateM ε σ α} {k : α → EStateM ε σ β} (hm : Keeps f m)
    (hk : ∀ a, Keeps f (k a)) : Keeps f (m >>= k) := by
  intro s
  have hms := hm s
  rw [exec_bind]
  rcases hr : exec m s with ⟨e | a, s'⟩
  · rw [hr] at hms
    exact hms
  · rw [hr] at hms
    exact (hk a s').trans hms

/-! ## Outcomes that do not depend on the state -/

/-- The outcome of `m` is the same from every state. -/
def Steady (m : EStateM ε σ α) : Prop := ∀ s t, (exec m s).1 = (exec m t).1

theorem steady_pure (a : α) : Steady (pure a : EStateM ε σ α) := fun _ _ => rfl

theorem steady_throw (e : ε) : Steady (throw e : EStateM ε σ α) := fun _ _ => rfl

theorem steady_modify (g : σ → σ) : Steady (modify g : EStateM ε σ PUnit) := fun _ _ => rfl

theorem steady_bind {m : EStateM ε σ α} {k : α → EStateM ε σ β} (hm : Steady m)
    (hk : ∀ a, Steady (k a)) : Steady (m >>= k) := by
  intro s t
  have hst := hm s t
  rw [exec_bind, exec_bind]
  rcases hs : exec m s with ⟨e | a, s'⟩ <;> rcases ht : exec m t with ⟨e' | b, t'⟩
  · rw [hs, ht] at hst
    rw [Except.error.inj hst]
  · rw [hs, ht] at hst
    cases hst
  · rw [hs, ht] at hst
    cases hst
  · rw [hs, ht] at hst
    rw [Except.ok.inj hst]
    exact hk b s' t'

/-! ## Properties closed under sequencing -/

/-- A property of computations that holds of returns and of exceptions in `E`
and is closed under sequencing. -/
structure Closed (E : ε → Prop) (R : ∀ {α : Type}, EStateM ε σ α → Prop) : Prop where
  pure : ∀ {α : Type} (a : α), R (pure a : EStateM ε σ α)
  throw : ∀ {α : Type} {e : ε}, E e → R (throw e : EStateM ε σ α)
  bind : ∀ {α β : Type} {m : EStateM ε σ α} {f : α → EStateM ε σ β},
    R m → (∀ a, R (f a)) → R (m >>= f)

theorem Closed.liftExcept {R : ∀ {α : Type}, EStateM ε σ α → Prop} (hR : Closed E R)
    {r : Except ε α} (h : ∀ e, r = .error e → E e) : R (liftExcept r : EStateM ε σ α) := by
  cases r with
  | ok a => exact hR.pure a
  | error e => exact hR.throw (h e rfl)

theorem throws_closed (E : ε → Prop) : Closed (σ := σ) E (fun m => Throws E m) where
  pure a := throws_pure a
  throw he := throws_throw he
  bind hm hf := throws_bind hm hf

theorem keeps_closed (E : ε → Prop) (f : σ → τ) : Closed E (fun m => Keeps f m) where
  pure a := keeps_pure a
  throw _ := keeps_throw _
  bind hm hk := keeps_bind hm hk

theorem steady_closed (E : ε → Prop) : Closed (σ := σ) E (fun m => Steady m) where
  pure a := steady_pure a
  throw _ := steady_throw _
  bind hm hk := steady_bind hm hk

end WidevineCdm.Lib
