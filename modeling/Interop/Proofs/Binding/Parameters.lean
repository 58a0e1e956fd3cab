import Interop.Proofs.Binding.Candidates
import Interop.Proofs.Binding.Lowering

/-!
# The names of parameters

The parameters of a function are named one after the other, each with a name that is free of those
before it (`Handed`), so these names are pairwise distinct.  The names that stand in the bindings
are made from them by escaping the reserved words, and this can bring two together again in one way
only: one name is a reserved word, and the other is that word with the mark already in front
(`parameters_apart`).
-/

set_option autoImplicit false

namespace Interop.Binding

open Number (natDigits)

/-! ## How candidates begin -/

theorem dropFinalNewline_begins (t : List Char) : dropFinalNewline t <+: t := by
  induction t with
  | nil => exact List.prefix_rfl
  | cons c t ih =>
    by_cases h : c = '\n' ∧ t = []
    · obtain ⟨rfl, rfl⟩ := h
      exact List.nil_prefix
    · rw [dropFinalNewline]
      · exact (List.prefix_cons_inj c).mpr ih
      · exact fun hc ht => h ⟨hc, ht⟩

theorem stem_begins (name : List Char) : stem name <+: name := by
  unfold stem
  split
  · exact List.prefix_rfl
  · refine List.IsPrefix.trans ?_ (dropFinalNewline_begins name)
    rw [splitDigits, ← List.reverse_suffix, List.reverse_reverse]
    exact List.dropWhile_suffix _

/-- A candidate is not empty, and begins with a digit or as the first one does. -/
theorem candidateAfter_begins {first name : String} {k : Nat} (hfirst : first ≠ "")
    (h : candidateAfter first k = .ok name) :
    ∃ c, name.toList.head? = some c ∧ (c.isDigit = true ∨ first.toList.head? = some c) := by
  cases k with
  | zero =>
    cases h
    cases hlist : first.toList with
    | nil => exact absurd (String.toList_eq_nil_iff.mp hlist) hfirst
    | cons c rest => exact ⟨c, rfl, .inr rfl⟩
  | succ k =>
    rw [(candidateAfter_ends first k).result h, String.toList_ofList]
    -- The stem is empty if the first name is nothing but digits: a candidate then begins with one.
    have hprefix := stem_begins first.toList
    cases hstem : stem first.toList with
    | nil =>
      cases hdigits : natDigits (ordinal first.toList + (k + 1)) with
      | nil => exact absurd hdigits (natDigits_ne_nil _)
      | cons c rest =>
        exact ⟨c, rfl, .inl (Number.isDigit_of_mem_natDigits (hdigits ▸ List.mem_cons_self))⟩
    | cons c rest =>
      rw [hstem] at hprefix
      obtain ⟨tail, htail⟩ := hprefix
      exact ⟨c, rfl, .inr (by rw [← htail]; rfl)⟩

theorem firstCandidate_ne_empty (candidate : String) : firstCandidate candidate ≠ "" := by
  unfold firstCandidate
  split
  · decide
  · next h => simpa using h

theorem freeName_ne_empty {candidate name : String} {used : List String}
    (h : freeName candidate used = .ok name) : name ≠ "" := by
  obtain ⟨-, k, hcandidate⟩ := freeName_eq_ok h
  obtain ⟨c, hc, -⟩ := candidateAfter_begins (firstCandidate_ne_empty candidate) hcandidate
  rintro rfl
  cases hc

/-- A free name begins with the mark only if the name that it is found for does. -/
theorem freeName_unmarked {candidate name : String} {used : List String}
    (h : freeName candidate used = .ok name) (hcandidate : candidate.toList.head? ≠ some '@') :
    name.toList.head? ≠ some '@' := by
  obtain ⟨-, k, hafter⟩ := freeName_eq_ok h
  obtain ⟨c, hc, hbegins⟩ := candidateAfter_begins (firstCandidate_ne_empty candidate) hafter
  rw [hc]
  rintro hmark
  cases hmark
  rcases hbegins with hdigit | hfirst
  · exact absurd hdigit (by decide)
  -- The first candidate is the name asked for, or what stands in for an empty one.
  · unfold firstCandidate at hfirst
    split at hfirst
    · exact absurd hfirst (by decide)
    · exact hcandidate hfirst

/-! ## Names handed out one after the other -/

/-- Each name is the free name for its candidate beside the names before it. -/
inductive Handed : List String → List String → List String → Prop
  | nil {used : List String} : Handed used [] []
  | cons {used candidates names : List String} {candidate name : String}
      (free : freeName candidate used = .ok name)
      (rest : Handed (used ++ [name]) candidates names) :
      Handed used (candidate :: candidates) (name :: names)

variable {used candidates names : List String}

theorem Handed.not_mem (h : Handed used candidates names) : ∀ n ∈ names, n ∉ used := by
  induction h with
  | nil => exact fun n hn => nomatch hn
  | cons hfree _ ih =>
    refine List.forall_mem_cons.mpr ⟨(freeName_eq_ok hfree).1, fun n hn hmem => ?_⟩
    exact ih n hn (List.mem_append_left _ hmem)

theorem Handed.nodup (h : Handed used candidates names) : names.Nodup := by
  induction h with
  | nil => exact List.nodup_nil
  | cons _ hrest ih =>
    refine List.nodup_cons.mpr ⟨fun hmem => ?_, ih⟩
    exact hrest.not_mem _ hmem (List.mem_append_right _ List.mem_cons_self)

theorem Handed.ne_empty (h : Handed used candidates names) : ∀ n ∈ names, n ≠ "" := by
  induction h with
  | nil => exact fun n hn => nomatch hn
  | cons hfree _ ih => exact List.forall_mem_cons.mpr ⟨freeName_ne_empty hfree, ih⟩

theorem Handed.unmarked (h : Handed used candidates names)
    (hcandidates : ∀ c ∈ candidates, c.toList.head? ≠ some '@') :
    ∀ n ∈ names, n.toList.head? ≠ some '@' := by
  induction h with
  | nil => exact fun n hn => nomatch hn
  | cons hfree _ ih =>
    obtain ⟨hcandidate, hcandidates⟩ := List.forall_mem_cons.mp hcandidates
    exact List.forall_mem_cons.mpr ⟨freeName_unmarked hfree hcandidate, ih hcandidates⟩

/-! ## Escaped names -/

/-- The one name is reserved, and escaped it is the other, which is not. -/
structure Clash (reserved : List String) (a b : String) : Prop where
  escaped : a ∈ reserved
  marked : b = "@" ++ a
  kept : b ∉ reserved

variable {reserved : List String} {a b : String}

theorem escapeReserved_of_mem (h : a ∈ reserved) : escapeReserved reserved a = "@" ++ a := by
  rw [escapeReserved, if_pos (List.contains_iff_mem.mpr h)]

theorem escapeReserved_of_not_mem (h : a ∉ reserved) : escapeReserved reserved a = a := by
  rw [escapeReserved, if_neg fun hmem => h (List.contains_iff_mem.mp hmem)]

theorem Clash.escapeReserved_eq (h : Clash reserved a b) :
    escapeReserved reserved a = escapeReserved reserved b := by
  rw [escapeReserved_of_mem h.escaped, escapeReserved_of_not_mem h.kept, h.marked]

/-- Escaping takes two names to one only if they clash. -/
theorem escapeReserved_eq_iff (hne : a ≠ b) :
    escapeReserved reserved a = escapeReserved reserved b
      ↔ Clash reserved a b ∨ Clash reserved b a := by
  constructor
  · intro heq
    by_cases ha : a ∈ reserved
    · rw [escapeReserved_of_mem ha] at heq
      by_cases hb : b ∈ reserved
      · rw [escapeReserved_of_mem hb] at heq
        exact absurd ((String.append_right_inj "@").mp heq) hne
      · rw [escapeReserved_of_not_mem hb] at heq
        exact .inl ⟨ha, heq.symm, hb⟩
    · rw [escapeReserved_of_not_mem ha] at heq
      by_cases hb : b ∈ reserved
      · rw [escapeReserved_of_mem hb] at heq
        exact .inr ⟨hb, heq, ha⟩
      · rw [escapeReserved_of_not_mem hb] at heq
        exact absurd heq hne
  · rintro (h | h)
    · exact h.escapeReserved_eq
    · exact h.escapeReserved_eq.symm

/-- Distinct names without the mark stay distinct. -/
theorem nodup_map_escapeReserved (hnodup : names.Nodup)
    (hunmarked : ∀ n ∈ names, n.toList.head? ≠ some '@') :
    (names.map (escapeReserved reserved)).Nodup := by
  have hclash {x y : String} (hy : y ∈ names) : ¬ Clash reserved x y := by
    intro h
    refine hunmarked y hy ?_
    rw [h.marked, String.toList_append]
    rfl
  refine hnodup.map_on fun x hx y hy heq => ?_
  by_contra hne
  rcases (escapeReserved_eq_iff hne).mp heq with h | h
  · exact hclash hy h
  · exact hclash hx h

/-! ## Lists of parameters -/

/-- A parameter is bound as it is declared, its name apart. -/
structure BindsParameter (o : Options) (p : Decl.Parameter) (q : Parameter) : Prop where
  comment : Decl.locationComment p.location = .ok q.comment
  type : q.type = .ofDecl o.booleanTypeName p.type
  isReadOnly : q.isReadOnly = p.isReadOnly

theorem lowerParameters_eq_ok {o : Options} {taken : List String} {ps : List Decl.Parameter}
    {lowered : List Parameter} (h : lowerParameters o taken ps = .ok lowered) :
    ∃ chosen, Handed taken (ps.map (·.name)) chosen
      ∧ lowered.map (·.name) = chosen.map (escapeReserved o.reserved)
      ∧ List.Forall₂ (BindsParameter o) ps lowered := by
  induction ps generalizing taken lowered with
  | nil =>
    cases h
    exact ⟨[], .nil, rfl, .nil⟩
  | cons p ps ih =>
    unfold lowerParameters at h
    obtain ⟨name, hname, h⟩ := bind_eq_ok.mp h
    obtain ⟨comment, hcomment, h⟩ := bind_eq_ok.mp h
    obtain ⟨rest, hrest, h⟩ := bind_eq_ok.mp h
    cases h
    obtain ⟨chosen, hchosen, hnames, hbinds⟩ := ih hrest
    refine ⟨name :: chosen, .cons (mapError_eq_ok.mp hname) hchosen, ?_, .cons ?_ hbinds⟩
    · rw [List.map_cons, List.map_cons, hnames]
    · exact ⟨mapError_eq_ok.mp hcomment, rfl, rfl⟩

/-- **Parameters are told apart.**  Parameters are bound one by one, in order.  The names chosen for
them are not empty and pairwise distinct, and two that are bound have one name just when the names
chosen for them clash; no two of them have if no parameter is declared with the mark in front. -/
theorem parameters_apart {o : Options} {ps : List Decl.Parameter} {lowered : List Parameter}
    (h : lowerParameters o [] ps = .ok lowered) :
    List.Forall₂ (BindsParameter o) ps lowered
    ∧ (∃ chosen, Handed [] (ps.map (·.name)) chosen
      ∧ lowered.map (·.name) = chosen.map (escapeReserved o.reserved)
      ∧ (∀ n ∈ chosen, n ≠ "") ∧ chosen.Nodup
      ∧ ∀ (i j : Nat) (p q : Parameter) (a b : String), i ≠ j →
          lowered[i]? = some p → lowered[j]? = some q → chosen[i]? = some a → chosen[j]? = some b →
          (p.name = q.name ↔ Clash o.reserved a b ∨ Clash o.reserved b a))
    ∧ ((∀ p ∈ ps, p.name.toList.head? ≠ some '@') → (lowered.map (·.name)).Nodup) := by
  obtain ⟨chosen, hchosen, hnames, hbinds⟩ := lowerParameters_eq_ok h
  refine ⟨hbinds, ⟨chosen, hchosen, hnames, hchosen.ne_empty, hchosen.nodup, ?_⟩, fun hps => ?_⟩
  · intro i j p q a b hij hp hq ha hb
    have hescaped {i : Nat} {p : Parameter} {a : String} (hp : lowered[i]? = some p)
        (ha : chosen[i]? = some a) : p.name = escapeReserved o.reserved a := by
      have hname := congrArg (·[i]?) hnames
      simpa only [List.getElem?_map, hp, ha, Option.map_some, Option.some.injEq] using hname
    have hne : a ≠ b := by
      rintro rfl
      have hlt : i < chosen.length := (List.getElem?_eq_some_iff.mp ha).1
      exact hij ((List.getElem?_inj hlt hchosen.nodup).mp (ha.trans hb.symm))
    rw [hescaped hp ha, hescaped hq hb, escapeReserved_eq_iff hne]
  · rw [hnames]
    exact nodup_map_escapeReserved hchosen.nodup (hchosen.unmarked (by simpa using hps))

/-- Parameters of these names, all of one type. -/
def namedParameters (names : List String) : List Decl.Parameter :=
  names.map fun name => ⟨name, none, sizedType "int" (.int 4), false⟩

/-- A reserved word beside the same word with the mark, and names that are taken, empty or lead up
to one that is taken. -/
theorem parameters_apart_words :
    (∃ lowered, lowerParameters Options.default [] (namedParameters ["in", "@in"]) = .ok lowered
      ∧ lowered.map (·.name) = ["@in", "@in"]
      ∧ List.Forall₂ (BindsParameter Options.default) (namedParameters ["in", "@in"]) lowered)
    ∧ ∃ lowered, lowerParameters Options.default [] (namedParameters ["x2", "x", "x", ""]) = .ok lowered
      ∧ lowered.map (·.name) = ["x2", "x", "x3", "param"] ∧ (lowered.map (·.name)).Nodup := by
  have hrun (names names' : List String)
      (hnames : (lowerParameters Options.default [] (namedParameters names)).toOption.map
        (·.map (·.name)) = some names') :
      ∃ lowered, lowerParameters Options.default [] (namedParameters names) = .ok lowered
        ∧ lowered.map (·.name) = names' := by
    obtain ⟨lowered, hlowered, hmap⟩ := Option.map_eq_some_iff.mp hnames
    exact ⟨lowered, toOption_eq_some.mp hlowered, hmap⟩
  obtain ⟨marked, hmarked, hnames⟩ := hrun ["in", "@in"] ["@in", "@in"] (by decide +kernel)
  obtain ⟨plain, hplain, hnames'⟩ :=
    hrun ["x2", "x", "x", ""] ["x2", "x", "x3", "param"] (by decide +kernel)
  refine ⟨⟨marked, hmarked, hnames, (parameters_apart hmarked).1⟩, plain, hplain, hnames', ?_⟩
  exact (parameters_apart hplain).2.2 (by decide)

end Interop.Binding
