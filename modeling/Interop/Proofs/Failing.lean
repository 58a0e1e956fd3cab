import Mathlib.Data.List.Forall2

/-!
# Computations that may fail

`Ends x P Q` says how a computation can end: with a result that satisfies `P`, or with an error
that satisfies `Q`.  There is one rule for each way to build a computation, so a statement about a
function is proved by following its text.  A statement about a list of computations relates each
result to the element that it comes from.
-/

set_option autoImplicit false

namespace Interop

variable {ε ε' α β γ : Type}

/-! ## Success and failure -/

theorem bind_eq_ok {x : Except ε α} {f : α → Except ε β} {b : β} :
    (x >>= f) = .ok b ↔ ∃ a, x = .ok a ∧ f a = .ok b := by
  cases x with
  | error e => simp [bind, Except.bind]
  | ok a => simp [bind, Except.bind]

theorem bind_eq_error {x : Except ε α} {f : α → Except ε β} {e : ε} :
    (x >>= f) = .error e ↔ x = .error e ∨ ∃ a, x = .ok a ∧ f a = .error e := by
  cases x with
  | error e' => simp [bind, Except.bind]
  | ok a => simp [bind, Except.bind]

@[simp] theorem ok_bind (a : α) (f : α → Except ε β) : (Except.ok a >>= f) = f a := rfl

@[simp] theorem error_bind (e : ε) (f : α → Except ε β) :
    ((Except.error e : Except ε α) >>= f) = .error e := rfl

@[simp] theorem pure_eq_ok (a : α) : (pure a : Except ε α) = .ok a := rfl

theorem mapError_eq_ok {g : ε → ε'} {x : Except ε α} {a : α} :
    x.mapError g = .ok a ↔ x = .ok a := by
  cases x with
  | error e => simp [Except.mapError]
  | ok a => simp [Except.mapError]

theorem mapError_eq_error {g : ε → ε'} {x : Except ε α} {e : ε'} :
    x.mapError g = .error e ↔ ∃ e', x = .error e' ∧ e = g e' := by
  cases x with
  | error e' => simp [Except.mapError, eq_comm]
  | ok a => simp [Except.mapError]

theorem map_eq_error {f : α → β} {x : Except ε α} {e : ε} : x.map f = .error e ↔ x = .error e := by
  cases x with
  | error e' => simp [Except.map]
  | ok a => simp [Except.map]

theorem toOption_eq_some {x : Except ε α} {a : α} : x.toOption = some a ↔ x = .ok a := by
  cases x with
  | error e => simp [Except.toOption]
  | ok a => simp [Except.toOption]

/-! ## How a computation ends -/

/-- Every result of the computation satisfies `P`, and every error `Q`.  This is a structure and not
a match on the computation, so that no tactic is led to run it. -/
structure Ends (x : Except ε α) (P : α → Prop) (Q : ε → Prop) : Prop where
  result {a : α} : x = .ok a → P a
  failure {e : ε} : x = .error e → Q e

namespace Ends

variable {P P' : α → Prop} {Q Q' : ε → Prop} {R : β → Prop}

theorem ok {a : α} (h : P a) : Ends (.ok a) P Q where
  result e := Except.ok.inj e ▸ h
  failure e := absurd e (by simp)

theorem error {e : ε} (h : Q e) : Ends (.error e) P Q where
  result e := absurd e (by simp)
  failure e := Except.error.inj e ▸ h

theorem mono {x : Except ε α} (h : Ends x P Q) (hP : ∀ a, P a → P' a) (hQ : ∀ e, Q e → Q' e) :
    Ends x P' Q' where
  result e := hP _ (h.result e)
  failure e := hQ _ (h.failure e)

theorem failing {x : Except ε α} (h : Ends x P Q) (hQ : ∀ e, Q e → Q' e) : Ends x P Q' :=
  h.mono (fun _ ha => ha) hQ

theorem giving {x : Except ε α} (h : Ends x P Q) (hP : ∀ a, P a → P' a) : Ends x P' Q :=
  h.mono hP fun _ he => he

/-- What is known of every result holds as well. -/
theorem also {x : Except ε α} {R : α → Prop} (h : Ends x P Q) (hR : ∀ a, x = .ok a → R a) :
    Ends x (fun a => R a ∧ P a) Q where
  result e := ⟨hR _ e, h.result e⟩
  failure e := h.failure e

theorem bind {x : Except ε α} {f : α → Except ε β} (h : Ends x P Q)
    (hf : ∀ a, P a → Ends (f a) R Q) : Ends (x >>= f) R Q := by
  cases x with
  | error e => exact error (h.failure rfl)
  | ok a => exact hf a (h.result rfl)

/-- Nothing is known of how the computation ends. -/
theorem any (x : Except ε α) : Ends x (fun _ => True) fun _ => True :=
  ⟨fun _ => trivial, fun _ => trivial⟩

/-- A step whose result is known. -/
theorem of_ok {x : Except ε α} {f : α → Except ε β} {a : α} (h : x = .ok a)
    (hf : Ends (f a) R Q) : Ends (x >>= f) R Q := by
  rw [h]
  exact hf

/-- A computation that cannot fail has its result. -/
theorem eq_ok {x : Except ε α} {a : α} (h : Ends x (· = a) Q) (hQ : ∀ e, ¬ Q e) : x = .ok a := by
  cases x with
  | error e => exact absurd (h.failure rfl) (hQ e)
  | ok a' => rw [h.result rfl]

theorem mapError {x : Except ε α} {g : ε → ε'} {Q : ε' → Prop} (h : Ends x P fun e => Q (g e)) :
    Ends (x.mapError g) P Q := by
  cases x with
  | error e => exact error (h.failure rfl)
  | ok a => exact ok (h.result rfl)

/-- The results of a list of computations correspond to the elements one by one. -/
theorem mapM {f : α → Except ε β} {S : α → β → Prop} {xs : List α}
    (h : ∀ x ∈ xs, Ends (f x) (S x) Q) : Ends (xs.mapM f) (List.Forall₂ S xs) Q := by
  induction xs with
  | nil => exact ok .nil
  | cons x xs ih =>
    rw [List.mapM_cons]
    refine (h x List.mem_cons_self).bind fun y hy => ?_
    refine (ih fun x' hx' => h x' (List.mem_cons_of_mem _ hx')).bind fun ys hys => ?_
    exact ok (.cons hy hys)

end Ends

/-- A list of computations has the results that correspond to its elements. -/
theorem mapM_eq_ok {f : α → Except ε β} {xs : List α} {ys : List β} :
    xs.mapM f = .ok ys ↔ List.Forall₂ (fun x y => f x = .ok y) xs ys := by
  induction xs generalizing ys with
  | nil =>
    rw [List.mapM_nil, List.forall₂_nil_left_iff]
    exact ⟨fun h => (Except.ok.inj h).symm, fun h => congrArg _ h.symm⟩
  | cons x xs ih =>
    rw [List.mapM_cons, bind_eq_ok, List.forall₂_cons_left_iff]
    constructor
    · rintro ⟨y, hy, hrest⟩
      obtain ⟨ys', hys', hcons⟩ := bind_eq_ok.mp hrest
      exact ⟨y, ys', hy, ih.mp hys', (Except.ok.inj hcons).symm⟩
    · rintro ⟨y, ys', hy, hys', rfl⟩
      exact ⟨y, hy, bind_eq_ok.mpr ⟨ys', ih.mpr hys', rfl⟩⟩

theorem mapM_eq_map {f : α → Except ε β} {g : α → β} {xs : List α}
    (h : ∀ x ∈ xs, f x = .ok (g x)) : xs.mapM f = .ok (xs.map g) :=
  mapM_eq_ok.mpr (List.forall₂_map_right_iff.mpr (List.forall₂_same.mpr h))

/-- A list of computations has results when each of them has one. -/
theorem exists_mapM_eq_ok {f : α → Except ε β} {xs : List α} :
    (∃ ys, xs.mapM f = .ok ys) ↔ ∀ x ∈ xs, ∃ y, f x = .ok y := by
  induction xs with
  | nil => exact ⟨fun _ x hx => absurd hx (by simp), fun _ => ⟨[], rfl⟩⟩
  | cons x xs ih =>
    rw [List.forall_mem_cons, ← ih, List.mapM_cons]
    constructor
    · rintro ⟨ys, hys⟩
      obtain ⟨y, hy, hrest⟩ := bind_eq_ok.mp hys
      obtain ⟨ys', hys', -⟩ := bind_eq_ok.mp hrest
      exact ⟨⟨y, hy⟩, ys', hys'⟩
    · rintro ⟨⟨y, hy⟩, ys, hys⟩
      rw [hy, hys]
      exact ⟨y :: ys, rfl⟩

/-- A list of computations fails with the error of the first one that fails. -/
theorem mapM_eq_error {f : α → Except ε β} {xs : List α} {e : ε} :
    xs.mapM f = .error e ↔ ∃ before x after ys,
      xs = before ++ x :: after ∧ before.mapM f = .ok ys ∧ f x = .error e := by
  constructor
  · intro h
    induction xs with
    | nil => cases h
    | cons x xs ih =>
      rw [List.mapM_cons] at h
      cases hx : f x with
      | error e' =>
        rw [hx] at h
        cases h
        exact ⟨[], x, xs, [], rfl, rfl, hx⟩
      | ok y =>
        cases hxs : xs.mapM f with
        | ok ys =>
          rw [hx, hxs] at h
          cases h
        | error e' =>
          rw [hx, hxs] at h
          cases h
          obtain ⟨before, x', after, ys, rfl, hbefore, hx'⟩ := ih hxs
          refine ⟨x :: before, x', after, y :: ys, rfl, ?_, hx'⟩
          rw [List.mapM_cons, hx, hbefore]
          rfl
  · rintro ⟨before, x, after, ys, rfl, hbefore, hx⟩
    rw [List.mapM_append, hbefore, List.mapM_cons, hx]
    rfl

/-- A list of computations in two steps each. -/
theorem mapM_bind_eq_ok {f : α → Except ε β} {g : β → Except ε γ} {xs : List α}
    {zs : List γ} : (xs.mapM fun x => f x >>= g) = .ok zs ↔
      ∃ ys, xs.mapM f = .ok ys ∧ ys.mapM g = .ok zs := by
  induction xs generalizing zs with
  | nil => simp [List.mapM_nil, pure, Except.pure]
  | cons x xs ih =>
    simp only [List.mapM_cons, bind_eq_ok, ih, pure_eq_ok, Except.ok.injEq]
    constructor
    · rintro ⟨z, ⟨y, hy, hz⟩, zs', ⟨ys, hys, hzs'⟩, rfl⟩
      refine ⟨y :: ys, ⟨y, hy, ys, hys, rfl⟩, ?_⟩
      simp only [List.mapM_cons, hz, hzs', ok_bind, pure_eq_ok]
    · rintro ⟨-, ⟨y, hy, ys, hys, rfl⟩, hzs⟩
      simp only [List.mapM_cons, bind_eq_ok, pure_eq_ok, Except.ok.injEq] at hzs
      obtain ⟨z, hz, zs', hzs', rfl⟩ := hzs
      exact ⟨z, ⟨y, hy, hz⟩, zs', ⟨ys, hys, hzs'⟩, rfl⟩

/-- Leaving elements out leaves their results out. -/
theorem mapM_filter {f : α → Except ε β} {p : α → Bool} {q : β → Bool} {xs : List α} {ys : List β}
    (hpq : ∀ x y, f x = .ok y → p x = q y) (h : xs.mapM f = .ok ys) :
    (xs.filter p).mapM f = .ok (ys.filter q) := by
  induction xs generalizing ys with
  | nil =>
    cases h
    rfl
  | cons x xs ih =>
    rw [List.mapM_cons] at h
    obtain ⟨y, hy, hrest⟩ := bind_eq_ok.mp h
    obtain ⟨ys', hys, hcons⟩ := bind_eq_ok.mp hrest
    cases hcons
    have hsame := hpq x y hy
    by_cases hp : p x = true
    · rw [List.filter_cons_of_pos hp, List.filter_cons_of_pos (hsame.symm.trans hp),
        List.mapM_cons, hy, ok_bind, ih hys]
      rfl
    · rw [List.filter_cons_of_neg hp, List.filter_cons_of_neg (fun hq => hp (hsame.trans hq))]
      exact ih hys

/-! ## Corresponding lists -/

theorem forall₂_congr_of_mem {R S : α → β → Prop} {xs : List α} {ys : List β}
    (h : ∀ x ∈ xs, ∀ y, R x y ↔ S x y) : List.Forall₂ R xs ys ↔ List.Forall₂ S xs ys := by
  induction xs generalizing ys with
  | nil => simp
  | cons x xs ih =>
    have hrest (ys : List β) : List.Forall₂ R xs ys ↔ List.Forall₂ S xs ys :=
      ih fun x' hx' => h x' (List.mem_cons_of_mem _ hx')
    simp only [List.forall₂_cons_left_iff, h x List.mem_cons_self, hrest]

theorem map_eq_map_of_forall₂ {f : α → γ} {g : β → γ} {xs : List α} {ys : List β}
    (h : List.Forall₂ (fun x y => g y = f x) xs ys) : ys.map g = xs.map f := by
  induction h with
  | nil => rfl
  | cons hxy _ ih => rw [List.map_cons, List.map_cons, hxy, ih]

theorem eq_map_of_forall₂ {f : α → β} {xs : List α} {ys : List β}
    (h : List.Forall₂ (fun x y => y = f x) xs ys) : ys = xs.map f :=
  (List.map_id ys).symm.trans (map_eq_map_of_forall₂ (g := id) h)

/-- Whatever is in the second list corresponds to something in the first. -/
theorem exists_of_forall₂ {S : α → β → Prop} {xs : List α} {ys : List β}
    (h : List.Forall₂ S xs ys) {y : β} (hy : y ∈ ys) : ∃ x ∈ xs, S x y := by
  induction h with
  | nil => cases hy
  | cons hxy _ ih =>
    rcases List.mem_cons.mp hy with rfl | hy
    · exact ⟨_, List.mem_cons_self, hxy⟩
    · obtain ⟨x, hx, hS⟩ := ih hy
      exact ⟨x, List.mem_cons_of_mem _ hx, hS⟩

/-- What is known of the elements of the first list can be used for what corresponds to them. -/
theorem forall₂_of_mem_left {S T : α → β → Prop} {xs : List α} {ys : List β}
    (h : List.Forall₂ S xs ys) (hT : ∀ x ∈ xs, ∀ y, S x y → T x y) : List.Forall₂ T xs ys :=
  ((List.forall₂_and_left xs ys).mpr ⟨fun _ hx => hx, h⟩).imp fun x y hxy => hT x hxy.1 y hxy.2

/-- What is known of the elements of the second list can be used for what they correspond to. -/
theorem forall₂_of_mem_right {S T : α → β → Prop} {xs : List α} {ys : List β}
    (h : List.Forall₂ S xs ys) (hT : ∀ x, ∀ y ∈ ys, S x y → T x y) : List.Forall₂ T xs ys := by
  induction h with
  | nil => exact .nil
  | cons hxy _ ih =>
    refine .cons (hT _ _ List.mem_cons_self hxy) (ih fun x y hy => ?_)
    exact hT x y (List.mem_cons_of_mem _ hy)

theorem forall_of_forall₂ {S : α → β → Prop} {P : β → Prop} {xs : List α} {ys : List β}
    (h : List.Forall₂ S xs ys) (hS : ∀ x y, S x y → P y) : ∀ y ∈ ys, P y := by
  intro y hy
  obtain ⟨x, -, hxy⟩ := exists_of_forall₂ h hy
  exact hS x y hxy

end Interop
