import Mathlib.Logic.Relation
import Interop.Proofs.Failing

/-!
# Jobs on a pool of workers

A pool works off a list of jobs, each of which gives a result or fails.  The jobs wait in a queue in
the order of submission.  A worker that is free takes the first of them and is done with it at any
later time.  A collector reads the results in the order of submission, in whatever order they came
in; the first error that it meets is the last thing it reads, and from then on jobs that nobody has
taken may be cancelled, while workers may still take others.

A run in which nothing is left to do has the outcome of doing the jobs one after the other
(`Reaches.result_eq`), and every run can be brought to such an end (`Reaches.exists_finished`).
-/

set_option autoImplicit false

namespace Interop

/-- The state of a pool.  Jobs go by their numbers in the order of submission. -/
structure Pool (ε α : Type) where
  /-- The jobs that nobody has taken. -/
  queue : List Nat
  /-- The jobs that workers are at. -/
  inHand : List Nat
  /-- What came of a job, once it is completed. -/
  slots : Nat → Option (Except ε α)
  /-- What the collector has read, which is what came of the first jobs. -/
  read : List α
  /-- The error that the collector has met. -/
  met : Option ε

namespace Pool

variable {ι ε α : Type}

/-- All jobs wait. -/
def start (count : Nat) : Pool ε α where
  queue := List.range count
  inHand := []
  slots _ := none
  read := []
  met := none

/-- What the collector gives to whoever waits for it. -/
def result (s : Pool ε α) : Except ε (List α) :=
  match s.met with
  | none => .ok s.read
  | some e => .error e

section Steps

variable (work : ι → Except ε α) (jobs : List ι) (workers : Nat)

inductive Step : Pool ε α → Pool ε α → Prop
  | take {s : Pool ε α} {i : Nat} {rest : List Nat} (next : s.queue = i :: rest)
      (free : s.inHand.length < workers) :
      Step s { s with queue := rest, inHand := i :: s.inHand }
  | complete {s : Pool ε α} {i : Nat} {x : ι} (busy : i ∈ s.inHand) (job : jobs[i]? = some x) :
      Step s { s with
        inHand := s.inHand.erase i
        slots := Function.update s.slots i (some (work x)) }
  | collect {s : Pool ε α} {a : α} (going : s.met = none)
      (slot : s.slots s.read.length = some (.ok a)) :
      Step s { s with read := s.read ++ [a] }
  | meet {s : Pool ε α} {e : ε} (going : s.met = none)
      (slot : s.slots s.read.length = some (.error e)) :
      Step s { s with met := some e }
  | cancel {s : Pool ε α} {i : Nat} (ended : s.met ≠ none) (waiting : i ∈ s.queue) :
      Step s { s with queue := s.queue.erase i }

/-- Some steps lead from one state to the other. -/
abbrev Leads : Pool ε α → Pool ε α → Prop := Relation.ReflTransGen (Step work jobs workers)

/-- A run from the start comes to a state. -/
def Reaches (s : Pool ε α) : Prop := Leads work jobs workers (start jobs.length) s

/-- Nothing is left to do, for the workers or for the collector. -/
structure Finished (s : Pool ε α) : Prop where
  queue : s.queue = []
  inHand : s.inHand = []
  collector : s.met = none → s.read.length = jobs.length

end Steps

variable {work : ι → Except ε α} {jobs : List ι} {workers : Nat} {s t : Pool ε α}

/-! ## What holds throughout a run -/

variable (work jobs) in
/-- The slots hold what came of the jobs, the collector has read a first part of them, and until it
meets an error no job is lost. -/
structure Sound (s : Pool ε α) : Prop where
  slots : ∀ i r, s.slots i = some r → ∃ x, jobs[i]? = some x ∧ r = work x
  read : (jobs.take s.read.length).mapM work = .ok s.read
  met : ∀ e, s.met = some e → ∃ x, jobs[s.read.length]? = some x ∧ work x = .error e
  queue : ∀ i ∈ s.queue, i < jobs.length
  inHand : ∀ i ∈ s.inHand, i < jobs.length
  somewhere : s.met = none → ∀ i < jobs.length, i ∈ s.queue ∨ i ∈ s.inHand ∨ s.slots i ≠ none

theorem sound_start : Sound work jobs (start jobs.length) where
  slots i r h := absurd h (by simp [start])
  read := rfl
  met e h := absurd h (by simp [start])
  queue i hi := List.mem_range.mp hi
  inHand i hi := absurd hi (by simp [start])
  somewhere _ i hi := .inl (List.mem_range.mpr hi)

theorem Sound.take {i : Nat} {rest : List Nat} (h : Sound work jobs s)
    (hnext : s.queue = i :: rest) :
    Sound work jobs { s with queue := rest, inHand := i :: s.inHand } where
  slots := h.slots
  read := h.read
  met := h.met
  queue j hj := h.queue j (hnext ▸ List.mem_cons_of_mem i hj)
  inHand j hj := by
    rcases List.mem_cons.mp hj with rfl | hj
    · exact h.queue j (hnext ▸ List.mem_cons_self)
    · exact h.inHand j hj
  somewhere hmet j hj := by
    -- The job that is taken is in hand from now on; all others are where they were.
    rcases h.somewhere hmet j hj with hqueue | hhand | hslot
    · rw [hnext] at hqueue
      rcases List.mem_cons.mp hqueue with rfl | hrest
      · exact .inr (.inl List.mem_cons_self)
      · exact .inl hrest
    · exact .inr (.inl (List.mem_cons_of_mem i hhand))
    · exact .inr (.inr hslot)

theorem Sound.complete {i : Nat} {x : ι} (h : Sound work jobs s) (hjob : jobs[i]? = some x) :
    Sound work jobs { s with
      inHand := s.inHand.erase i
      slots := Function.update s.slots i (some (work x)) } where
  slots j r hr := by
    dsimp only at hr
    by_cases hj : j = i
    · subst hj
      rw [Function.update_self] at hr
      exact ⟨x, hjob, (Option.some.inj hr).symm⟩
    · rw [Function.update_of_ne hj] at hr
      exact h.slots j r hr
  read := h.read
  met := h.met
  queue := h.queue
  inHand j hj := h.inHand j (List.mem_of_mem_erase hj)
  somewhere hmet j hj := by
    dsimp only
    by_cases hji : j = i
    · subst hji
      rw [Function.update_self]
      exact .inr (.inr (by simp))
    · rw [Function.update_of_ne hji, List.mem_erase_of_ne hji]
      exact h.somewhere hmet j hj

theorem Sound.collect {a : α} (h : Sound work jobs s) (hgoing : s.met = none)
    (hslot : s.slots s.read.length = some (.ok a)) :
    Sound work jobs { s with read := s.read ++ [a] } where
  slots := h.slots
  read := by
    obtain ⟨x, hx, ha⟩ := h.slots _ _ hslot
    have htake : jobs.take (s.read ++ [a]).length = jobs.take s.read.length ++ [x] := by
      rw [List.length_append, List.length_singleton, List.take_add_one, hx]
      rfl
    rw [htake, List.mapM_append, h.read, List.mapM_cons, ← ha]
    rfl
  met e he := by
    rw [hgoing] at he
    cases he
  queue := h.queue
  inHand := h.inHand
  somewhere := h.somewhere

theorem Sound.meet {e : ε} (h : Sound work jobs s)
    (hslot : s.slots s.read.length = some (.error e)) :
    Sound work jobs { s with met := some e } where
  slots := h.slots
  read := h.read
  met e' he' := by
    cases he'
    obtain ⟨x, hx, he⟩ := h.slots _ _ hslot
    exact ⟨x, hx, he.symm⟩
  queue := h.queue
  inHand := h.inHand
  somewhere hmet := by cases hmet

theorem Sound.cancel (h : Sound work jobs s) (hover : s.met ≠ none) (i : Nat) :
    Sound work jobs { s with queue := s.queue.erase i } where
  slots := h.slots
  read := h.read
  met := h.met
  queue j hj := h.queue j (List.mem_of_mem_erase hj)
  inHand := h.inHand
  somewhere hmet := absurd hmet hover

theorem Step.sound (hstep : Step work jobs workers s t) (h : Sound work jobs s) :
    Sound work jobs t := by
  cases hstep with
  | take next free => exact h.take next
  | complete busy job => exact h.complete job
  | collect going slot => exact h.collect going slot
  | meet going slot => exact h.meet slot
  | cancel ended waiting => exact h.cancel ended _

theorem Leads.sound (hleads : Leads work jobs workers s t) (h : Sound work jobs s) :
    Sound work jobs t := by
  induction hleads with
  | refl => exact h
  | tail _ hstep ih => exact hstep.sound ih

theorem Reaches.sound (h : Reaches work jobs workers s) : Sound work jobs s :=
  Leads.sound h sound_start

/-! ## What a finished run gives -/

/-- A finished run gives what doing the jobs one after the other gives. -/
theorem Reaches.result_eq (h : Reaches work jobs workers s) (hfinished : Finished jobs s) :
    s.result = jobs.mapM work := by
  have hsound := h.sound
  unfold result
  cases hmet : s.met with
  | none =>
    have hread := hsound.read
    rw [hfinished.collector hmet, List.take_length] at hread
    exact hread.symm
  | some e =>
    -- All jobs before the one whose error was met have been read, so it is the first that fails.
    obtain ⟨x, hx, he⟩ := hsound.met e hmet
    obtain ⟨hlt, rfl⟩ := List.getElem?_eq_some_iff.mp hx
    have hsplit : jobs = jobs.take s.read.length ++ jobs[s.read.length]
        :: jobs.drop (s.read.length + 1) := by
      rw [← List.drop_eq_getElem_cons hlt, List.take_append_drop]
    exact (mapM_eq_error.mpr ⟨_, _, _, _, hsplit, hsound.read, he⟩).symm

/-! ## Every run can be finished -/

/-- How much there is left to do.  A job that is taken, and then one that is completed, is less to
do than one that waits. -/
def effort (jobs : List ι) (s : Pool ε α) : Nat :=
  3 * s.queue.length + 2 * s.inHand.length + (jobs.length - s.read.length)
    + if s.met.isNone then 1 else 0

/-- Every step leaves less to do, so no run goes on forever. -/
theorem Step.effort_lt (hstep : Step work jobs workers s t) (h : Sound work jobs s) :
    effort jobs t < effort jobs s := by
  unfold effort
  cases hstep with
  | take next free =>
    dsimp only
    rw [next, List.length_cons, List.length_cons]
    omega
  | complete busy job =>
    have hpos := List.length_pos_of_mem busy
    dsimp only
    rw [List.length_erase_of_mem busy]
    omega
  | collect going slot =>
    obtain ⟨x, hx, -⟩ := h.slots _ _ slot
    have hlt := (List.getElem?_eq_some_iff.mp hx).1
    dsimp only
    rw [List.length_append, List.length_singleton]
    omega
  | meet going slot =>
    rw [going]
    exact Nat.lt_succ_self _
  | cancel ended waiting =>
    have hpos := List.length_pos_of_mem waiting
    dsimp only
    rw [List.length_erase_of_mem waiting]
    omega

/-- With a worker there is always a next step, until the run is finished. -/
theorem Sound.exists_step (h : Sound work jobs s) (hworkers : 0 < workers)
    (hopen : ¬ Finished jobs s) : ∃ t, Step work jobs workers s t := by
  cases hhand : s.inHand with
  | cons i rest =>
    have hbusy : i ∈ s.inHand := hhand ▸ List.mem_cons_self
    exact ⟨_, .complete hbusy (List.getElem?_eq_getElem (h.inHand i hbusy))⟩
  | nil =>
    cases hqueue : s.queue with
    | cons i rest => exact ⟨_, .take hqueue (by rw [hhand]; exact hworkers)⟩
    | nil =>
      -- All jobs are completed, so it is the collector that is not done.
      have hcollector : ¬ (s.met = none → s.read.length = jobs.length) :=
        fun hc => hopen ⟨hqueue, hhand, hc⟩
      obtain ⟨hgoing, hshort⟩ := Classical.not_imp.mp hcollector
      have hread : s.read.length < jobs.length := by
        have hlength := (mapM_eq_ok.mp h.read).length_eq
        rw [List.length_take] at hlength
        omega
      rcases h.somewhere hgoing _ hread with hwaits | hbusy | hslot
      · exact absurd hwaits (by simp [hqueue])
      · exact absurd hbusy (by simp [hhand])
      · obtain ⟨r, hr⟩ := Option.ne_none_iff_exists'.mp hslot
        cases r with
        | ok a => exact ⟨_, .collect hgoing hr⟩
        | error e => exact ⟨_, .meet hgoing hr⟩

theorem Sound.exists_finished (h : Sound work jobs s) (hworkers : 0 < workers) :
    ∃ t, Leads work jobs workers s t ∧ Finished jobs t := by
  induction heffort : effort jobs s using Nat.strongRecOn generalizing s with
  | _ n ih =>
    by_cases hfinished : Finished jobs s
    · exact ⟨s, .refl, hfinished⟩
    · obtain ⟨t, hstep⟩ := h.exists_step hworkers hfinished
      have hlt := hstep.effort_lt h
      obtain ⟨u, hleads, hu⟩ := ih (effort jobs t) (heffort ▸ hlt) (hstep.sound h) rfl
      exact ⟨u, .head hstep hleads, hu⟩

theorem Reaches.exists_finished (h : Reaches work jobs workers s) (hworkers : 0 < workers) :
    ∃ t, Leads work jobs workers s t ∧ Finished jobs t :=
  h.sound.exists_finished hworkers

end Pool

end Interop
