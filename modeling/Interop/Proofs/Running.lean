/-!
# Running actions

An action ends in a state whether it returns or fails (`after`).  What the state has to do with the
one it began in is followed along the text of the action, for any relation that composes; what it
means that an action returned is taken apart step by step.  The errors that an action can fail with
do not depend on the state (`Failing`), and two runs can be followed side by side (`Matching`).
-/

set_option autoImplicit false

namespace Interop

variable {ε σ α β : Type}

/-- The state that a run ends in. -/
def after : EStateM.Result ε σ α → σ
  | .ok _ t => t
  | .error _ t => t

/-! ## Steps -/

section Steps

variable {x : EStateM ε σ α} {f : α → EStateM ε σ β} {s t : σ}

theorem run_bind_ok {a : α} (h : x s = .ok a t) : (x >>= f) s = f a t := by
  show EStateM.bind x f s = f a t
  rw [EStateM.bind, h]

theorem run_bind_error {e : ε} (h : x s = .error e t) : (x >>= f) s = .error e t := by
  show EStateM.bind x f s = .error e t
  rw [EStateM.bind, h]

/-- An action that returned has returned from each of its steps. -/
theorem run_bind_eq_ok {b : β} :
    (x >>= f) s = .ok b t ↔ ∃ a u, x s = .ok a u ∧ f a u = .ok b t := by
  cases hx : x s with
  | error e u =>
    rw [run_bind_error hx]
    constructor
    · intro h
      cases h
    · rintro ⟨a, v, h, -⟩
      cases h
  | ok a u =>
    rw [run_bind_ok hx]
    constructor
    · intro h
      exact ⟨a, u, rfl, h⟩
    · rintro ⟨a', u', h, h'⟩
      cases h
      exact h'

/-- An action that failed has failed at one of its steps. -/
theorem run_bind_eq_error {e : ε} :
    (x >>= f) s = .error e t ↔ x s = .error e t ∨ ∃ a u, x s = .ok a u ∧ f a u = .error e t := by
  cases hx : x s with
  | error e' u =>
    rw [run_bind_error hx]
    constructor
    · intro h
      cases h
      exact .inl rfl
    · rintro (h | ⟨a, v, h, -⟩)
      · cases h
        rfl
      · cases h
  | ok a u =>
    rw [run_bind_ok hx]
    constructor
    · intro h
      exact .inr ⟨a, u, rfl, h⟩
    · rintro (h | ⟨a', u', h, h'⟩)
      · cases h
      · cases h
        exact h'

/-- Only the results of the first step matter to what follows it. -/
theorem run_bind_congr {g : α → EStateM ε σ β} (h : ∀ a t, x s = .ok a t → f a t = g a t) :
    (x >>= f) s = (x >>= g) s := by
  cases hx : x s with
  | error e t => rw [run_bind_error hx, run_bind_error hx]
  | ok a t => rw [run_bind_ok hx, run_bind_ok hx, h a t hx]

variable {handle : ε → EStateM ε σ α}

theorem run_tryCatch_ok {a : α} (h : x s = .ok a t) : tryCatch x handle s = .ok a t := by
  show EStateM.tryCatch x handle s = _
  delta EStateM.tryCatch
  simp only [h]

/-- A handler goes on from the state in which the action failed. -/
theorem run_tryCatch_error {e : ε} (h : x s = .error e t) :
    tryCatch x handle s = handle e t := by
  show EStateM.tryCatch x handle s = _
  delta EStateM.tryCatch
  simp only [h]
  rfl

end Steps

/-! ## Relations between the states before and after -/

section Relations

variable {R : σ → σ → Prop}

theorem after_bind {x : EStateM ε σ α} {f : α → EStateM ε σ β} {s : σ}
    (trans : ∀ s t u, R s t → R t u → R s u) (hx : R s (after (x s)))
    (hf : ∀ a t, x s = .ok a t → R s t → R t (after (f a t))) : R s (after ((x >>= f) s)) := by
  cases hr : x s with
  | error e t =>
    rw [run_bind_error hr]
    rwa [hr] at hx
  | ok a t =>
    rw [run_bind_ok hr]
    rw [hr] at hx
    exact trans _ _ _ hx (hf a t hr hx)

theorem after_tryCatch {x : EStateM ε σ α} {handle : ε → EStateM ε σ α} {s : σ}
    (trans : ∀ s t u, R s t → R t u → R s u) (hx : R s (after (x s)))
    (hhandle : ∀ e t, x s = .error e t → R t (after (handle e t))) :
    R s (after (tryCatch x handle s)) := by
  cases hr : x s with
  | ok a t =>
    rw [run_tryCatch_ok hr]
    rwa [hr] at hx
  | error e t =>
    rw [run_tryCatch_error hr]
    rw [hr] at hx
    exact trans _ _ _ hx (hhandle e t hr)

end Relations

/-! ## The errors of an action -/

/-- Wherever it begins, the action fails with no other errors than these. -/
def Failing (x : EStateM ε σ α) (Q : ε → Prop) : Prop := ∀ s e t, x s = .error e t → Q e

namespace Failing

variable {x : EStateM ε σ α} {Q Q' : ε → Prop}

theorem pure (a : α) : Failing (pure a : EStateM ε σ α) Q :=
  fun _ _ _ h => nomatch h

theorem throw {e : ε} (h : Q e) : Failing (throw e : EStateM ε σ α) Q := by
  intro s e' t he
  cases he
  exact h

theorem modify (f : σ → σ) : Failing (modify f : EStateM ε σ Unit) Q :=
  fun _ _ _ h => nomatch h

/-- What follows a step is asked about the results of the step alone. -/
theorem bind {f : α → EStateM ε σ β} (h : Failing x Q)
    (hf : ∀ a s t, x s = .ok a t → Failing (f a) Q) : Failing (x >>= f) Q := by
  intro s e t hrun
  rcases run_bind_eq_error.mp hrun with hx | ⟨a, u, hx, hfa⟩
  · exact h s e t hx
  · exact hf a s u hx u e t hfa

/-- A step that only looks at the state does not fail. -/
theorem get {f : σ → EStateM ε σ β} (hf : ∀ s, Failing (f s) Q) : Failing (get >>= f) Q :=
  bind (fun _ _ _ h => nomatch h) fun a _ _ _ => hf a

theorem tryCatch {handle : ε → EStateM ε σ α} (h : Failing x Q)
    (hhandle : ∀ e, Q e → Failing (handle e) Q') : Failing (tryCatch x handle) Q' := by
  intro s e t hrun
  cases hx : x s with
  | ok a u =>
    rw [run_tryCatch_ok hx] at hrun
    cases hrun
  | error e' u =>
    rw [run_tryCatch_error hx] at hrun
    exact hhandle e' (h s e' u hx) u e t hrun

end Failing

/-! ## Two runs side by side -/

/-- Two runs end alike: with the same result or the same error, in states that are related. -/
inductive Matching (R : σ → σ → Prop) : EStateM.Result ε σ α → EStateM.Result ε σ α → Prop
  | ok {a : α} {s t : σ} (h : R s t) : Matching R (.ok a s) (.ok a t)
  | error {e : ε} {s t : σ} (h : R s t) : Matching R (.error e s) (.error e t)

section Matching

variable {R : σ → σ → Prop} {s t : σ}

theorem matching_bind {x y : EStateM ε σ α} {f g : α → EStateM ε σ β}
    (h : Matching R (x s) (y t)) (hfg : ∀ a u v, R u v → Matching R (f a u) (g a v)) :
    Matching R ((x >>= f) s) ((y >>= g) t) := by
  generalize hx : x s = rx at h
  generalize hy : y t = ry at h
  cases h with
  | ok huv =>
    rw [run_bind_ok hx, run_bind_ok hy]
    exact hfg _ _ _ huv
  | error huv =>
    rw [run_bind_error hx, run_bind_error hy]
    exact .error huv

theorem matching_tryCatch {x y : EStateM ε σ α} {handle handle' : ε → EStateM ε σ α}
    (h : Matching R (x s) (y t))
    (hhandle : ∀ e u v, R u v → Matching R (handle e u) (handle' e v)) :
    Matching R (tryCatch x handle s) (tryCatch y handle' t) := by
  generalize hx : x s = rx at h
  generalize hy : y t = ry at h
  cases h with
  | ok huv =>
    rw [run_tryCatch_ok hx, run_tryCatch_ok hy]
    exact .ok huv
  | error huv =>
    rw [run_tryCatch_error hx, run_tryCatch_error hy]
    exact hhandle _ _ _ huv

/-- Next to a run that returned, the other one has returned the same. -/
theorem exists_of_matching {x y : EStateM ε σ α} {a : α} {u : σ} (h : Matching R (x s) (y t))
    (hx : x s = .ok a u) : ∃ v, y t = .ok a v ∧ R u v := by
  rw [hx] at h
  generalize y t = ry at h
  cases h with
  | ok huv => exact ⟨_, rfl, huv⟩

end Matching

end Interop
