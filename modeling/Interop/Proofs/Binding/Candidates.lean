import Interop.Proofs.Binding.Faults

/-!
# The search for a free name

A name has a stem and a number: the number that its final digits stand for, or one if it has none.
The next candidate has the same stem and the next number (`nextCandidate_ends`), so the candidates
of a search have different numbers and none of them comes up twice.

A search that has passed `k` candidates has therefore met `k` different names that are taken, and
ends before it runs out of them.  `Search` is the search as a loop that keeps the names it has seen
and the names in use, and stops if a name comes up again; `freeName_is_first` says that it ends, how
it ends, and that `freeName` gives what it ends with.
-/

set_option autoImplicit false

namespace Interop.Binding

open Number (natDigits digitLimit digitsValue)
open Text (isAsciiDigit)

/-! ## Stems and numbers -/

/-- The digits that a name ends in, apart from a newline after them. -/
def finalDigits (name : List Char) : List Char := (splitDigits (dropFinalNewline name)).2

/-- What the candidates after a name begin with. -/
def stem (name : List Char) : List Char :=
  if finalDigits name = [] then name else (splitDigits (dropFinalNewline name)).1

/-- The number that the candidates after a name go on from. -/
def ordinal (name : List Char) : Nat :=
  if finalDigits name = [] then 1 else digitsValue (finalDigits name)

/-- The last character is no digit. -/
def NoFinalDigit (t : List Char) : Prop := t.getLast?.all (!isAsciiDigit ·) = true

/-- The digits of a name are more than can be read, or its number is too large to be written when it
has been counted up. -/
structure CountsTooFar (name : List Char) (count : Nat) (e : NumberFault) : Prop where
  limit : DigitLimited e
  digits : digitLimit < (finalDigits name).length ∨ tenTo digitLimit ≤ ordinal name + count

theorem isAsciiDigit_of_mem_natDigits {n : Nat} {c : Char} (h : c ∈ natDigits n) :
    isAsciiDigit c = true := by
  have hdigit := Number.isDigit_of_mem_natDigits h
  simpa [Char.isDigit, isAsciiDigit, Char.le_def] using hdigit

/-- A number of more digits than a count is at least that power of ten. -/
theorem tenTo_le_of_length {count n : Nat} (hcount : 0 < count) (h : count < (natDigits n).length) :
    tenTo count ≤ n :=
  Nat.le_of_not_lt fun hlt =>
    Nat.not_le_of_lt h ((Nat.length_toDigits_le_iff (by decide) hcount).mpr hlt)

theorem natDigits_ne_nil (n : Nat) : natDigits n ≠ [] := Nat.toDigits_ne_nil

theorem dropFinalNewline_append {p t : List Char} (ht : t ≠ []) :
    dropFinalNewline (p ++ t) = p ++ dropFinalNewline t := by
  induction p with
  | nil => rfl
  | cons c p ih =>
    rw [List.cons_append, dropFinalNewline, ih, List.cons_append]
    rintro - h
    exact ht (List.append_eq_nil_iff.mp h).2

theorem dropFinalNewline_eq_self {t : List Char} (h : ∀ c ∈ t, c ≠ '\n') :
    dropFinalNewline t = t := by
  induction t with
  | nil => rfl
  | cons c t ih =>
    obtain ⟨hc, ht⟩ := List.forall_mem_cons.mp h
    rw [dropFinalNewline, ih ht]
    exact fun hnewline _ => hc hnewline

theorem splitDigits_append {p ds : List Char} (hp : NoFinalDigit p)
    (hds : ∀ c ∈ ds, isAsciiDigit c = true) : splitDigits (p ++ ds) = (p, ds) := by
  have hreverse : ∀ c ∈ ds.reverse, isAsciiDigit c = true := fun c hc => hds c (List.mem_reverse.mp hc)
  have hfront : p.reverse.takeWhile isAsciiDigit = [] ∧ p.reverse.dropWhile isAsciiDigit = p.reverse := by
    rw [NoFinalDigit, ← List.head?_reverse] at hp
    cases hr : p.reverse with
    | nil => exact ⟨rfl, rfl⟩
    | cons c rest =>
      rw [hr] at hp
      have hc : ¬ isAsciiDigit c = true := by simpa using hp
      exact ⟨List.takeWhile_cons_of_neg hc, List.dropWhile_cons_of_neg hc⟩
  unfold splitDigits
  rw [List.reverse_append, List.dropWhile_append_of_pos hreverse, hfront.2,
    List.takeWhile_append_of_pos hreverse, hfront.1]
  simp

section Numbered

variable {p : List Char} (hp : NoFinalDigit p) (n : Nat)

include hp

/-- A number behind a stem is what the name ends in. -/
theorem splitDigits_numbered :
    splitDigits (dropFinalNewline (p ++ natDigits n)) = (p, natDigits n) := by
  have hdigits : ∀ c ∈ natDigits n, isAsciiDigit c = true := fun _ => isAsciiDigit_of_mem_natDigits
  have hkept : dropFinalNewline (natDigits n) = natDigits n := by
    refine dropFinalNewline_eq_self fun c hc hnewline => ?_
    have hdigit := hdigits c hc
    rw [hnewline] at hdigit
    exact absurd hdigit (by decide)
  rw [dropFinalNewline_append (natDigits_ne_nil n), hkept, splitDigits_append hp hdigits]

theorem finalDigits_numbered : finalDigits (p ++ natDigits n) = natDigits n := by
  rw [finalDigits, splitDigits_numbered hp]

theorem stem_numbered : stem (p ++ natDigits n) = p := by
  rw [stem, finalDigits_numbered hp, if_neg (natDigits_ne_nil n), splitDigits_numbered hp]

theorem ordinal_numbered : ordinal (p ++ natDigits n) = n := by
  rw [ordinal, finalDigits_numbered hp, if_neg (natDigits_ne_nil n), Number.digitsValue_natDigits]

end Numbered

theorem noFinalDigit_front (t : List Char) : NoFinalDigit (splitDigits t).1 := by
  have hhead := List.head?_dropWhile_not isAsciiDigit t.reverse
  rw [NoFinalDigit, splitDigits, List.getLast?_reverse]
  cases hd : (t.reverse.dropWhile isAsciiDigit).head? with
  | none => rfl
  | some c =>
    rw [hd] at hhead
    simpa using hhead

/-- A name without final digits does not end in one, with or without a newline. -/
theorem noFinalDigit_of_finalDigits {name : List Char} (h : finalDigits name = []) :
    NoFinalDigit name := by
  rcases List.eq_nil_or_concat name with rfl | ⟨rest, c, rfl⟩
  · rfl
  rw [List.concat_eq_append] at h ⊢
  by_cases hc : isAsciiDigit c = true
  -- Such a character is no newline, so it would be the last of the final digits.
  · have hnewline : c ≠ '\n' := by
      rintro rfl
      exact absurd hc (by decide)
    rw [finalDigits, dropFinalNewline_append (List.cons_ne_nil c []),
      dropFinalNewline_eq_self (by simpa using hnewline)] at h
    simp [splitDigits, hc] at h
  · simp [NoFinalDigit, hc]

theorem noFinalDigit_stem (name : List Char) : NoFinalDigit (stem name) := by
  unfold stem
  split
  · next h => exact noFinalDigit_of_finalDigits h
  · exact noFinalDigit_front _

/-! ## The next candidate -/

/-- The next candidate has the same stem and the next number. -/
theorem nextCandidate_ends (name : List Char) :
    Ends (nextCandidate name) (· = stem name ++ natDigits (ordinal name + 1))
      (CountsTooFar name 1) := by
  unfold nextCandidate
  split
  · next h =>
    have hnone : finalDigits name = [] := by rw [finalDigits, h]
    rw [stem, ordinal, if_pos hnone, if_pos hnone]
    exact Ends.ok rfl
  · next front digits hne h =>
    have hdigits : finalDigits name = digits := by rw [finalDigits, h]
    have hsome : finalDigits name ≠ [] := fun hnil => hne (hdigits.symm.trans hnil)
    rw [stem, ordinal, if_neg hsome, if_neg hsome, h, hdigits]
    have hread : Ends (Number.readDigits digits) (· = digitsValue digits) (CountsTooFar name 1) := by
      unfold Number.readDigits
      split
      · next hlong => exact Ends.error ⟨.read _, .inl (hdigits ▸ hlong)⟩
      · exact Ends.ok rfl
    refine hread.bind fun n hn => ?_
    rw [hn]
    refine ((Number.intText_ends _).failing fun e he => ?_).bind fun t ht => Ends.ok ?_
    · obtain ⟨rfl, hlarge⟩ := he
      refine ⟨.write, .inr ?_⟩
      rw [ordinal, if_neg hsome, hdigits]
      exact Nat.le_of_not_lt hlarge
    · rw [ht]
      rfl

/-! ## All candidates of a search -/

/-- The name that a search begins with. -/
def firstCandidate (candidate : String) : String :=
  if candidate.isEmpty then defaultParameterName else candidate

/-- The candidate that comes a number of steps after a name. -/
def candidateAfter (name : String) : Nat → Except NumberFault String
  | 0 => .ok name
  | k + 1 => do return String.ofList (← nextCandidate (← candidateAfter name k).toList)

theorem CountsTooFar.mono {name : List Char} {count count' : Nat} (h : count ≤ count')
    {e : NumberFault} (he : CountsTooFar name count e) : CountsTooFar name count' e where
  limit := he.limit
  digits := he.digits.imp_right fun hlarge => Nat.le_trans hlarge (by omega)

/-- A number is too long to be read only if it is too large to be written. -/
theorem CountsTooFar.of_numbered {name : List Char} {count : Nat} {e : NumberFault}
    (he : CountsTooFar (stem name ++ natDigits (ordinal name + count)) 1 e) :
    CountsTooFar name (count + 1) e where
  limit := he.limit
  digits := by
    have hstem := noFinalDigit_stem name
    have hdigits := he.digits
    rw [finalDigits_numbered hstem, ordinal_numbered hstem] at hdigits
    rcases hdigits with hlong | hlarge
    · exact .inr (Nat.le_succ_of_le (tenTo_le_of_length (by decide) hlong))
    · exact .inr hlarge

/-- All candidates after a name have its stem, and the numbers that follow its own. -/
theorem candidateAfter_ends (name : String) (k : Nat) :
    Ends (candidateAfter name (k + 1))
      (· = String.ofList (stem name.toList ++ natDigits (ordinal name.toList + (k + 1))))
      (CountsTooFar name.toList (k + 1)) := by
  induction k with
  | zero =>
    refine (nextCandidate_ends name.toList).bind fun next hnext => Ends.ok ?_
    rw [hnext]
  | succ k ih =>
    refine (ih.failing fun _ he => he.mono (Nat.le_succ _)).bind fun before hbefore => ?_
    have hstem := noFinalDigit_stem name.toList
    have hnext := nextCandidate_ends before.toList
    rw [hbefore, String.toList_ofList] at hnext ⊢
    refine (hnext.failing fun _ he => he.of_numbered).bind fun next hnext => Ends.ok ?_
    rw [hnext, stem_numbered hstem, ordinal_numbered hstem]
    rfl

/-- The numbers of the candidates go up by one. -/
theorem ordinal_candidateAfter {name n : String} {k : Nat} (h : candidateAfter name k = .ok n) :
    ordinal n.toList = ordinal name.toList + k := by
  cases k with
  | zero =>
    cases h
    rfl
  | succ k =>
    rw [(candidateAfter_ends name k).result h, String.toList_ofList,
      ordinal_numbered (noFinalDigit_stem _)]

/-- No candidate of a search comes up twice. -/
theorem candidateAfter_injective {name n : String} {j k : Nat} (hj : candidateAfter name j = .ok n)
    (hk : candidateAfter name k = .ok n) : j = k := by
  have hordinal := (ordinal_candidateAfter hj).symm.trans (ordinal_candidateAfter hk)
  omega

/-! ## The search as a loop -/

/-- A search for a name that is not in use. -/
structure Search where
  name : String
  /-- The names that were found to be in use. -/
  seen : List String
  /-- The names in use. -/
  used : List String

namespace Search

inductive Ending
  | found (name : String)
  | fault (e : NumberFault)
  /-- A name came up that had been seen before. -/
  | repeated (name : String)

/-- What a search does next: it goes on, or ends and leaves these names in use. -/
inductive Turn
  | goesOn (s : Search)
  | ends (ending : Ending) (used : List String)

def turn (s : Search) : Turn :=
  if s.name ∈ s.used then
    if s.name ∈ s.seen then .ends (.repeated s.name) s.used
    else match nextCandidate s.name.toList with
      | .ok next => .goesOn { s with name := String.ofList next, seen := s.name :: s.seen }
      | .error e => .ends (.fault e) s.used
  else .ends (.found s.name) (s.used ++ [s.name])

/-- The search goes on so many times and then ends. -/
inductive Runs : Search → Nat → Ending → List String → Prop
  | ends {s : Search} {ending : Ending} {used : List String} (last : s.turn = .ends ending used) :
      Runs s 0 ending used
  | goesOn {s t : Search} {k : Nat} {ending : Ending} {used : List String}
      (next : s.turn = .goesOn t) (rest : Runs t k ending used) : Runs s (k + 1) ending used

/-- There is one way only for a search to go. -/
theorem Runs.unique {s : Search} {k k' : Nat} {ending ending' : Ending} {used used' : List String}
    (h : Runs s k ending used) (h' : Runs s k' ending' used') :
    k = k' ∧ ending = ending' ∧ used = used' := by
  induction h generalizing k' with
  | ends last =>
    cases h' with
    | ends last' =>
      cases last.symm.trans last'
      exact ⟨rfl, rfl, rfl⟩
    | goesOn next' _ => cases last.symm.trans next'
  | goesOn next _ ih =>
    cases h' with
    | ends last' => cases next.symm.trans last'
    | goesOn next' rest' =>
      cases next.symm.trans next'
      obtain ⟨rfl, hrest⟩ := ih rest'
      exact ⟨rfl, hrest⟩

/-- The search from a name on, before anything has been seen. -/
def start (name : String) (used : List String) : Search where
  name := name
  seen := []
  used := used

/-- The name of a search is the candidate that follows those it has seen, each of which is another
one of the names in use. -/
structure Sound (first : String) (s : Search) : Prop where
  name : candidateAfter first s.seen.length = .ok s.name
  candidates : ∀ k < s.seen.length, ∃ n ∈ s.seen, candidateAfter first k = .ok n
  seen : ∀ n ∈ s.seen, n ∈ s.used ∧ ∃ k < s.seen.length, candidateAfter first k = .ok n
  nodup : s.seen.Nodup

variable {first : String} {s : Search}

theorem sound_start (used : List String) : Sound first (start first used) where
  name := rfl
  candidates _ h := absurd h (Nat.not_lt_zero _)
  seen _ h := absurd h List.not_mem_nil
  nodup := List.nodup_nil

/-- The name of the search has not been seen. -/
theorem Sound.fresh (h : Sound first s) : s.name ∉ s.seen := by
  intro hmem
  obtain ⟨-, k, hk, hcandidate⟩ := h.seen s.name hmem
  exact Nat.ne_of_lt hk (candidateAfter_injective hcandidate h.name)

theorem Sound.length_seen_le (h : Sound first s) : s.seen.length ≤ s.used.dedup.length :=
  (h.nodup.subperm fun n hn => List.mem_dedup.mpr (h.seen n hn).1).length_le

/-- A search goes on only from names in use, and there is still one more of these than have been
seen. -/
theorem Sound.length_seen_lt (h : Sound first s) (hused : s.name ∈ s.used) :
    s.seen.length < s.used.dedup.length := by
  have hnodup : (s.name :: s.seen).Nodup := List.nodup_cons.mpr ⟨h.fresh, h.nodup⟩
  have hsubset : s.name :: s.seen ⊆ s.used.dedup := by
    refine List.cons_subset.mpr ⟨List.mem_dedup.mpr hused, fun n hn => ?_⟩
    exact List.mem_dedup.mpr (h.seen n hn).1
  exact (hnodup.subperm hsubset).length_le

/-- All candidates up to the name of the search are in use if that is. -/
theorem Sound.candidates_used (h : Sound first s) (hused : s.name ∈ s.used) :
    ∀ k ≤ s.seen.length, ∃ n ∈ s.used, candidateAfter first k = .ok n := by
  intro k hk
  rcases Nat.lt_or_eq_of_le hk with hlt | rfl
  · obtain ⟨n, hn, hcandidate⟩ := h.candidates k hlt
    exact ⟨n, (h.seen n hn).1, hcandidate⟩
  · exact ⟨s.name, hused, h.name⟩

theorem Sound.candidateAfter_succ (h : Sound first s) :
    candidateAfter first (s.seen.length + 1)
      = (do return String.ofList (← nextCandidate s.name.toList)) := by
  rw [candidateAfter, h.name, ok_bind]

/-- What is kept when a search goes on. -/
theorem Sound.goesOn (h : Sound first s) (hused : s.name ∈ s.used) {next : List Char}
    (hnext : nextCandidate s.name.toList = .ok next) :
    Sound first { s with name := String.ofList next, seen := s.name :: s.seen } where
  name := by
    rw [List.length_cons, h.candidateAfter_succ, hnext]
    rfl
  candidates k hk := by
    rcases Nat.lt_or_eq_of_le (Nat.le_of_lt_succ hk) with hlt | rfl
    · obtain ⟨n, hn, hcandidate⟩ := h.candidates k hlt
      exact ⟨n, List.mem_cons_of_mem _ hn, hcandidate⟩
    · exact ⟨s.name, List.mem_cons_self, h.name⟩
  seen n hn := by
    rcases List.mem_cons.mp hn with rfl | hn
    · exact ⟨hused, s.seen.length, Nat.lt_succ_self _, h.name⟩
    · obtain ⟨hmem, k, hk, hcandidate⟩ := h.seen n hn
      exact ⟨hmem, k, Nat.lt_succ_of_lt hk, hcandidate⟩
  nodup := List.nodup_cons.mpr ⟨h.fresh, h.nodup⟩

/-- What a search has come to after a number of candidates, beside the result of `freeName`: the
first candidate that is not in use, which is in use from then on, or a fault where that candidate
would be. -/
inductive Answers (first : String) (used : List String) (k : Nat) :
    Except NumberFault String → Ending → List String → Prop
  | found {name : String} (candidate : candidateAfter first k = .ok name) (free : name ∉ used)
      (before : ∀ j < k, ∃ n ∈ used, candidateAfter first j = .ok n) :
      Answers first used k (.ok name) (.found name) (used ++ [name])
  | fault {e : NumberFault} (candidate : candidateAfter first (k + 1) = .error e)
      (limit : DigitLimited e) (before : ∀ j ≤ k, ∃ n ∈ used, candidateAfter first j = .ok n) :
      Answers first used k (.error e) (.fault e) used

/-- A search for which the name is free is over. -/
theorem Sound.exists_runs_of_free (h : Sound first s) (hfree : s.name ∉ s.used) (steps : Nat) :
    ∃ k ending used, s.Runs k ending used ∧ s.seen.length + k ≤ s.used.dedup.length
      ∧ Answers first s.used (s.seen.length + k) (firstFree s.used steps s.name) ending used := by
  have hfirst : firstFree s.used steps s.name = .ok s.name := by
    cases steps with
    | zero => rfl
    | succ steps => rw [firstFree, if_neg fun hmem => hfree (List.contains_iff_mem.mp hmem)]
  refine ⟨0, _, _, .ends (by rw [turn, if_neg hfree]), h.length_seen_le, ?_⟩
  rw [hfirst]
  refine .found h.name hfree fun k hk => ?_
  obtain ⟨n, hn, hcandidate⟩ := h.candidates k hk
  exact ⟨n, (h.seen n hn).1, hcandidate⟩

/-- A search ends while there are names in use that it has not seen, and so do the steps of
`firstFree`, with the same result. -/
theorem Sound.exists_runs {steps : Nat} (h : Sound first s)
    (hsteps : s.used.dedup.length ≤ steps + s.seen.length) :
    ∃ k ending used, s.Runs k ending used ∧ s.seen.length + k ≤ s.used.dedup.length
      ∧ Answers first s.used (s.seen.length + k) (firstFree s.used steps s.name) ending used := by
  -- The names seen are different ones of those in use (`h`), and the steps are at least as many as
  -- are left; so when there are no more steps the name cannot be in use.
  induction steps generalizing s with
  | zero =>
    refine h.exists_runs_of_free (fun hused => ?_) 0
    have hlt := h.length_seen_lt hused
    omega
  | succ steps ih =>
    by_cases hused : s.name ∈ s.used
    case neg => exact h.exists_runs_of_free hused (steps + 1)
    have hturn : s.turn = match nextCandidate s.name.toList with
        | .ok next => .goesOn { s with name := String.ofList next, seen := s.name :: s.seen }
        | .error e => .ends (.fault e) s.used := by
      rw [turn, if_pos hused, if_neg h.fresh]
    have hfirst : firstFree s.used (steps + 1) s.name
        = (do firstFree s.used steps (String.ofList (← nextCandidate s.name.toList))) := by
      rw [firstFree, if_pos (List.contains_iff_mem.mpr hused)]
    cases hnext : nextCandidate s.name.toList with
    | error e =>
      rw [hnext] at hturn hfirst
      refine ⟨0, _, _, .ends hturn, h.length_seen_le, ?_⟩
      rw [hfirst]
      refine .fault ?_ ((nextCandidate_ends _).failure hnext).limit (h.candidates_used hused)
      rw [Nat.add_zero, h.candidateAfter_succ, hnext]
      rfl
    | ok next =>
      rw [hnext] at hturn hfirst
      have hlength : (s.name :: s.seen).length = s.seen.length + 1 := List.length_cons
      obtain ⟨k, ending, used, hruns, hbound, hanswers⟩ := ih (h.goesOn hused hnext) (by
        dsimp only
        omega)
      dsimp only at hbound hanswers
      rw [hlength, Nat.succ_add_eq_add_succ] at hbound hanswers
      refine ⟨k + 1, ending, used, .goesOn hturn hruns, hbound, ?_⟩
      rw [hfirst]
      exact hanswers

end Search

variable (candidate : String) (used : List String)

theorem search_answers :
    ∃ k ending after, Search.Runs (Search.start (firstCandidate candidate) used) k ending after
      ∧ k ≤ used.dedup.length
      ∧ Search.Answers (firstCandidate candidate) used k (freeName candidate used) ending after := by
  have hsteps : used.dedup.length ≤ used.length + ([] : List String).length :=
    (List.dedup_sublist used).length_le
  have hsound : Search.Sound (firstCandidate candidate)
      (Search.start (firstCandidate candidate) used) := Search.sound_start used
  obtain ⟨k, ending, after, hruns, hbound, hanswers⟩ := hsound.exists_runs hsteps
  rw [Search.start, List.length_nil, Nat.zero_add] at hbound hanswers
  exact ⟨k, ending, after, hruns, hbound, hanswers⟩

variable {candidate used} in
/-- A free name is not in use, and one of the candidates. -/
theorem freeName_eq_ok {name : String} (h : freeName candidate used = .ok name) :
    name ∉ used ∧ ∃ k, candidateAfter (firstCandidate candidate) k = .ok name := by
  obtain ⟨k, ending, after, -, -, hanswers⟩ := search_answers candidate used
  rw [h] at hanswers
  cases hanswers with
  | found hcandidate hfree _ => exact ⟨hfree, k, hcandidate⟩

/-- **The search for a free name.**  A search goes on no more often than there are different names
in use, and never meets a name again.  It ends with the first of its candidates that is not in use
and adds this one to the names in use, or, with these as they were, with a fault where the next
candidate has too many digits; and so does `freeName`.  No two candidates are the same, and all but
the first are the stem of the first with the numbers that follow its own. -/
theorem freeName_is_first :
    (∃ k ending after, Search.Runs (Search.start (firstCandidate candidate) used) k ending after
      ∧ (∀ k' ending' after',
          Search.Runs (Search.start (firstCandidate candidate) used) k' ending' after'
            → k' = k ∧ ending' = ending ∧ after' = after)
      ∧ k ≤ used.dedup.length
      ∧ Search.Answers (firstCandidate candidate) used k (freeName candidate used) ending after)
    ∧ (∀ j k n, candidateAfter (firstCandidate candidate) j = .ok n →
        candidateAfter (firstCandidate candidate) k = .ok n → j = k)
    ∧ ∀ k ≥ 1, Ends (candidateAfter (firstCandidate candidate) k)
        (· = String.ofList (stem (firstCandidate candidate).toList
          ++ natDigits (ordinal (firstCandidate candidate).toList + k)))
        (CountsTooFar (firstCandidate candidate).toList k) := by
  refine ⟨?_, fun _ _ _ => candidateAfter_injective, fun k hk => ?_⟩
  · obtain ⟨k, ending, after, hruns, hbound, hanswers⟩ := search_answers candidate used
    exact ⟨k, ending, after, hruns, fun _ _ _ h => h.unique hruns, hbound, hanswers⟩
  · obtain ⟨j, rfl⟩ := Nat.exists_eq_add_of_le' hk
    exact candidateAfter_ends _ j

example : freeName "x007" ["x007", "x8", "y"] = .ok "x9" := by decide +kernel

example : freeName "x1\n" ["x1\n", "x2"] = .ok "x3" := by decide +kernel

end Interop.Binding
