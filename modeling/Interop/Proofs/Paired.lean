import Interop.Proofs.Failing

/-!
# Two computations side by side

`Paired R E X x y` says how the computations `x` and `y` end compared with each other: both with
results that are related by `R`, or both with errors that are related by `E`.  The first may also
end with an error that excuses it (`X`), and then nothing is known of the second.  As for `Ends`
there is one rule for each way to build a computation.
-/

set_option autoImplicit false

namespace Interop

inductive Paired {ε α β : Type} (R : α → β → Prop) (E : ε → ε → Prop) (X : ε → Prop) :
    Except ε α → Except ε β → Prop
  | ok {a : α} {b : β} (related : R a b) : Paired R E X (.ok a) (.ok b)
  | error {e e' : ε} (related : E e e') : Paired R E X (.error e) (.error e')
  | excused {e : ε} {y : Except ε β} (excuse : X e) : Paired R E X (.error e) y

namespace Paired

variable {ε α β γ δ : Type} {R R' : α → β → Prop} {S : γ → δ → Prop} {E : ε → ε → Prop}
  {X : ε → Prop} {x : Except ε α} {y : Except ε β}

theorem mono (h : Paired R E X x y) (i : ∀ a b, R a b → R' a b) : Paired R' E X x y := by
  cases h with
  | ok hab => exact .ok (i _ _ hab)
  | error he => exact .error he
  | excused hx => exact .excused hx

theorem bind {f : α → Except ε γ} {g : β → Except ε δ} (h : Paired R E X x y)
    (hfg : ∀ a b, R a b → Paired S E X (f a) (g b)) : Paired S E X (x >>= f) (y >>= g) := by
  cases h with
  | ok hab => exact hfg _ _ hab
  | error he => exact .error he
  | excused hx => exact .excused hx

/-- A computation goes with itself, and so do steps that follow it. -/
theorem after (hE : ∀ e, E e e) {f : α → Except ε γ} {g : α → Except ε δ}
    (hfg : ∀ a, x = .ok a → Paired S E X (f a) (g a)) : Paired S E X (x >>= f) (x >>= g) := by
  cases hx : x with
  | ok a => exact hfg a hx
  | error e => exact .error (hE e)

theorem mapM {f : α → Except ε γ} {g : β → Except ε δ} {xs : List α} {ys : List β}
    (h : List.Forall₂ (fun x y => Paired S E X (f x) (g y)) xs ys) :
    Paired (List.Forall₂ S) E X (xs.mapM f) (ys.mapM g) := by
  induction h with
  | nil => exact .ok .nil
  | cons hxy _ ih =>
    rw [List.mapM_cons, List.mapM_cons]
    refine hxy.bind fun a b hab => ?_
    exact ih.bind fun as bs habs => .ok (.cons hab habs)

/-- Elements beside what a map makes of them. -/
theorem mapM_map {f : α → Except ε γ} {g : β → Except ε δ} {m : α → β} {xs : List α}
    (h : ∀ x ∈ xs, Paired S E X (f x) (g (m x))) :
    Paired (List.Forall₂ S) E X (xs.mapM f) ((xs.map m).mapM g) :=
  mapM (List.forall₂_map_right_iff.mpr (List.forall₂_same.mpr h))

theorem result (h : Paired R E X x y) {a : α} (hx : x = .ok a) : ∃ b, y = .ok b ∧ R a b := by
  cases h with
  | ok hab =>
    cases hx
    exact ⟨_, rfl, hab⟩
  | error he => cases hx
  | excused he => cases hx

/-- Without an excuse the first has a result if the second has one. -/
theorem result_of_second (h : Paired R E X x y) (hX : ∀ e, ¬ X e) {b : β} (hy : y = .ok b) :
    ∃ a, x = .ok a ∧ R a b := by
  cases h with
  | ok hab =>
    cases hy
    exact ⟨_, rfl, hab⟩
  | error he => cases hy
  | excused he => exact absurd he (hX _)

/-- Without an excuse, and with equal errors, both end with the same errors. -/
theorem error_iff (h : Paired R Eq X x y) (hX : ∀ e, ¬ X e) {e : ε} :
    x = .error e ↔ y = .error e := by
  cases h with
  | ok _ => simp
  | error he => rw [he, Except.error.injEq, Except.error.injEq]
  | excused he => exact absurd he (hX _)

end Paired

end Interop
