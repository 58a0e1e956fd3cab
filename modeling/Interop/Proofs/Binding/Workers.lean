import Interop.Proofs.Binding.Lowering
import Interop.Proofs.Pool

/-!
# Lowering on a pool of workers

With more than one worker the declarations of a header are the jobs of a pool, and what comes of a
job is the outcome of its declaration.  Outcomes are put into their places only when all of them are
there, so nothing of the order in which workers take and complete jobs is left in the result: a
finished run gives what lowering the declarations one after the other gives, and if declarations are
at fault, the fault of the first of them (`workers_keep_order`).
-/

set_option autoImplicit false

namespace Interop.Binding

/-! ## One after the other -/

namespace Bound

def function? : Bound → Option Function
  | function f => some f
  | _ => none

def functionPointer? : Bound → Option FunctionPointer
  | functionPointer p => some p
  | _ => none

def struct? : Bound → Option Struct
  | struct s => some s
  | _ => none

def opaqueStruct? : Bound → Option OpaqueStruct
  | opaqueStruct s => some s
  | _ => none

def enumeration? : Bound → Option Enumeration
  | enumeration e => some e
  | _ => none

end Bound

/-- Why something was not bound. -/
def refused? {β : Type} : Except Failure β → Option Failure
  | .ok _ => none
  | .error f => some f

/-- Puts what was bound to the others of its sort, and what was refused to the failures. -/
def gather (outcomes : List (Except Failure Bound)) : Lowered :=
  let bound := outcomes.filterMap Except.toOption
  { bindings :=
      { functions := bound.filterMap Bound.function?
        functionPointers := bound.filterMap Bound.functionPointer?
        structs := bound.filterMap Bound.struct?
        opaqueStructs := bound.filterMap Bound.opaqueStruct?
        enumerations := bound.filterMap Bound.enumeration? }
    failures := outcomes.filterMap refused? }

/-- Lowers the declarations of a header one after the other. -/
def lowerInOrder (o : Options) (h : Decl.Header) : Except Fault Lowered := do
  return gather (← (declarations h).mapM (Declaration.outcome o))

section Order

variable {o : Options} {h : Decl.Header} {α β : Type}

/-- A section is collected from the outcomes of its declarations, one after the other. -/
theorem collect_eq_mapM (f : α → Outcome β) (xs : List α) :
    Outcome.collect (xs.map f) = (do
      let rs ← xs.mapM (m := Except Fault) f
      return (rs.filterMap Except.toOption, rs.filterMap refused?)) := by
  induction xs with
  | nil => rfl
  | cons x xs ih =>
    rw [List.map_cons, List.mapM_cons]
    cases f x with
    | error fault => rfl
    | ok outcome =>
      cases outcome with
      | ok b =>
        rw [Outcome.collect, ih]
        cases xs.mapM (m := Except Fault) f <;> rfl
      | error failure =>
        rw [Outcome.collect, ih]
        cases xs.mapM (m := Except Fault) f <;> rfl

/-- The declarations of a section have the outcomes of what they declare. -/
theorem mapM_section (c : α → Declaration) (f : α → Outcome β) (g : β → Bound)
    (hc : ∀ x, (c x).outcome o = (f x).map g) (xs : List α) :
    (xs.map c).mapM (m := Except Fault) (Declaration.outcome o) = (do
      let rs ← xs.mapM (m := Except Fault) f
      return rs.map (Except.map g)) := by
  induction xs with
  | nil => rfl
  | cons x xs ih =>
    rw [List.map_cons, List.mapM_cons, List.mapM_cons, hc, ih]
    cases f x with
    | error fault => rfl
    | ok outcome => cases xs.mapM (m := Except Fault) f <;> rfl

theorem filterMap_toOption_map (g : β → Bound) (rs : List (Except Failure β)) :
    (rs.map (Except.map g)).filterMap Except.toOption = (rs.filterMap Except.toOption).map g := by
  rw [List.filterMap_map, List.map_filterMap]
  refine List.filterMap_congr fun r _ => ?_
  cases r <;> rfl

theorem filterMap_refused?_map (g : β → Bound) (rs : List (Except Failure β)) :
    (rs.map (Except.map g)).filterMap refused? = rs.filterMap refused? := by
  rw [List.filterMap_map]
  refine List.filterMap_congr fun r _ => ?_
  cases r <;> rfl

/-- Lowering a header is lowering its declarations one after the other. -/
theorem lower_eq_lowerInOrder : lower o h = lowerInOrder o h := by
  unfold lower lowerInOrder declarations
  simp only [List.mapM_append, collect_eq_mapM,
    mapM_section .function (Outcome.ofFunction o) .function fun _ => rfl,
    mapM_section .functionPointer (Outcome.ofFunctionPointer o) .functionPointer fun _ => rfl,
    mapM_section .record (Outcome.ofRecord o) .struct fun _ => rfl,
    mapM_section .typedef (Outcome.ofAlias o) .struct fun _ => rfl,
    mapM_section .opaquePointer (Outcome.ofOpaquePointer o) .struct fun _ => rfl,
    mapM_section .opaqueType Outcome.ofOpaqueType .opaqueStruct fun _ => rfl,
    mapM_section .enumeration (Outcome.ofEnumeration o) .enumeration fun _ => rfl,
    bind_assoc, pure_bind]
  refine bind_congr fun functions => bind_congr fun functionPointers => bind_congr fun records => ?_
  refine bind_congr fun aliases => bind_congr fun opaquePointers => ?_
  refine bind_congr fun opaqueStructs => bind_congr fun enumerations => congrArg pure ?_
  simp only [gather, List.filterMap_append, filterMap_toOption_map, filterMap_refused?_map]
  simp [List.filterMap_map, Function.comp_def, Bound.function?, Bound.functionPointer?,
    Bound.struct?, Bound.opaqueStruct?, Bound.enumeration?]

/-! ## The first fault -/

/-- The fault that a declaration is at. -/
def Outcome.fault? : Outcome β → Option Fault
  | .error fault => some fault
  | .ok _ => none

theorem Outcome.fault?_eq_some {x : Outcome β} {fault : Fault} :
    x.fault? = some fault ↔ x = .error fault := by
  cases x with
  | error fault' => simp [fault?]
  | ok outcome => simp [fault?]

/-- The fault is that of a declaration, and the ones before it are bound or refused. -/
def FirstFault (o : Options) (ds : List Declaration) (fault : Fault) : Prop :=
  ∃ before d after, ds = before ++ d :: after
    ∧ (∀ d' ∈ before, (d'.outcome o).Returns) ∧ d.outcome o = .error fault

/-- Lowering one after the other ends with the first fault that there is. -/
theorem lowerInOrder_eq_error {fault : Fault} :
    lowerInOrder o h = .error fault ↔ FirstFault o (declarations h) fault := by
  have hrun : lowerInOrder o h = .error fault ↔
      (declarations h).mapM (m := Except Fault) (Declaration.outcome o) = .error fault := by
    unfold lowerInOrder
    cases (declarations h).mapM (m := Except Fault) (Declaration.outcome o) with
    | ok rs => exact ⟨fun he => (by cases he), fun he => (by cases he)⟩
    | error fault' => rw [error_bind, Except.error.injEq, Except.error.injEq]
  rw [hrun, mapM_eq_error]
  constructor
  · rintro ⟨before, d, after, rs, hsplit, hbefore, hd⟩
    exact ⟨before, d, after, hsplit, exists_mapM_eq_ok.mp ⟨rs, hbefore⟩, hd⟩
  · rintro ⟨before, d, after, hsplit, hbefore, hd⟩
    obtain ⟨rs, hrs⟩ := exists_mapM_eq_ok.mpr hbefore
    exact ⟨before, d, after, rs, hsplit, hrs, hd⟩

end Order

/-! ## On a pool -/

section Workers

variable (o : Options) (h : Decl.Header)

/-- A state of the pool that lowers the declarations of a header. -/
abbrev Workshop := Pool Fault (Except Failure Bound)

/-- The workers, taking and completing declarations in some order, have come to this state. -/
def Workshop.Reached (s : Workshop) : Prop :=
  s.Reaches (Declaration.outcome o) (declarations h) o.workers.toNat

/-- What a run of the lowering can give.  A pool is set up if there is more than one worker, and
more than one declaration to work at. -/
inductive LowersTo : Except Fault Lowered → Prop
  | oneByOne (few : o.workers ≤ 1 ∨ (declarations h).length ≤ 1) : LowersTo (lowerInOrder o h)
  | onPool (workers : 1 < o.workers) (many : 1 < (declarations h).length) {s : Workshop}
      (reached : s.Reached o h) (finished : s.Finished (declarations h)) :
      LowersTo (s.result.map gather)

variable {o h}

/-- A finished run on the pool gives what lowering the declarations one after the other gives. -/
theorem Workshop.Reached.result_eq {s : Workshop} (hs : s.Reached o h)
    (hfinished : s.Finished (declarations h)) : s.result.map gather = lowerInOrder o h := by
  rw [Pool.Reaches.result_eq hs hfinished]
  rfl

/-- A run on the pool can be brought to an end from any state that it comes to. -/
theorem Workshop.Reached.exists_finished {s : Workshop} (hs : s.Reached o h)
    (hworkers : 1 < o.workers) :
    ∃ t : Workshop, s.Leads (Declaration.outcome o) (declarations h) o.workers.toNat t
      ∧ t.Finished (declarations h) :=
  Pool.Reaches.exists_finished hs (by omega)

/-- There is always something that a run gives. -/
theorem exists_lowersTo : ∃ r, LowersTo o h r := by
  by_cases hfew : o.workers ≤ 1 ∨ (declarations h).length ≤ 1
  · exact ⟨_, .oneByOne hfew⟩
  · obtain ⟨hworkers, hmany⟩ : 1 < o.workers ∧ 1 < (declarations h).length := by omega
    have hstart : Workshop.Reached o h (Pool.start (declarations h).length) := .refl
    obtain ⟨s, hleads, hfinished⟩ := hstart.exists_finished hworkers
    exact ⟨_, .onPool hworkers hmany (s := s) hleads hfinished⟩

theorem lowersTo_iff {r : Except Fault Lowered} : LowersTo o h r ↔ r = lowerInOrder o h := by
  have hgives {r : Except Fault Lowered} (hr : LowersTo o h r) : r = lowerInOrder o h := by
    cases hr with
    | oneByOne few => rfl
    | onPool workers many reached finished => exact reached.result_eq finished
  constructor
  · exact hgives
  · -- Some run gives something, and what it gives can only be this.
    rintro rfl
    obtain ⟨r, hr⟩ := exists_lowersTo (o := o) (h := h)
    exact hgives hr ▸ hr

end Workers

/-- In whatever order the workers of a pool take and complete the declarations of a header, a
finished run gives the bindings and the failures that lowering them one after the other gives, in
the same order, or the fault of the first declaration that is at fault; and every run can be
finished.  So it does not matter to the result of lowering how many workers there are. -/
theorem workers_keep_order (o : Options) (h : Decl.Header) :
    (∀ s : Workshop, s.Reached o h → s.Finished (declarations h) →
      s.result.map gather = lowerInOrder o h)
    ∧ (∀ s : Workshop, s.Reached o h → 1 < o.workers →
      ∃ t : Workshop, s.Leads (Declaration.outcome o) (declarations h) o.workers.toNat t
        ∧ t.Finished (declarations h))
    ∧ (∀ fault, lowerInOrder o h = .error fault ↔ FirstFault o (declarations h) fault)
    ∧ ∀ r, LowersTo o h r ↔ r = lower o h := by
  refine ⟨fun s hs => hs.result_eq, fun s hs => hs.exists_finished, ?_, fun r => ?_⟩
  · exact fun fault => lowerInOrder_eq_error
  · rw [lower_eq_lowerInOrder]
    exact lowersTo_iff

/-! Two records are at fault, and the second worker is done before the first one. -/

def hastyOptions : Options :=
  { checkedOptions with booleanTypeName := .number (.int 5), workers := 2 }

/-- An array of the boolean type, which is given no name that a keyword can be looked up for. -/
def flagsRecord : Decl.Record where
  name := "Flags"
  location := none
  type := sizedType "Flags" (.int 2)
  fields := [⟨"bits", none, { sizedType "bool" (.int 2) with
    arraySize := some (.int 2), isSystem := true }, .int 0, .int 0⟩]
  nested := []

/-- The size of the field is an integer that no double reaches, and its padding is a double. -/
def hugeRecord : Decl.Record :=
  singleRecord "Huge" (.int (twoTo 1024)) (.int (twoTo 1024)) (.double (Binary64.zero false)) []

def faultyHeader : Decl.Header := { sampleHeader with
  functions := []
  records := [flagsRecord, hugeRecord]
  aliases := [] }

theorem workers_keep_order_swapped :
    ∃ s : Workshop, s.Reached hastyOptions faultyHeader ∧ s.Finished (declarations faultyHeader)
      ∧ 1 < hastyOptions.workers ∧ s.slots 1 = some (.error (.number .tooLargeForDouble))
      ∧ s.result.map gather = .error (.lacks "int" "strip")
      ∧ lowerInOrder hastyOptions faultyHeader = .error (.lacks "int" "strip")
      ∧ lower hastyOptions faultyHeader = .error (.lacks "int" "strip") := by
  let work := Declaration.outcome hastyOptions
  let jobs := declarations faultyHeader
  have hfirst : work (.record flagsRecord) = .error (.lacks "int" "strip") :=
    Outcome.fault?_eq_some.mp (by decide +kernel)
  have hsecond : work (.record hugeRecord) = .error (.number .tooLargeForDouble) :=
    Outcome.fault?_eq_some.mp (by decide +kernel)
  have taken : (Pool.start 2).Leads work jobs 2
      { queue := [], inHand := [1, 0], slots := fun _ => none, read := [], met := none } :=
    .tail (.tail .refl (.take rfl (by decide))) (.take rfl (by decide))
  have completed := (taken.tail (.complete (i := 1) (by decide) rfl)).tail
    (.complete (i := 0) (by decide) rfl)
  have met := completed.tail (.meet rfl (congrArg some hfirst))
  obtain ⟨s, hreached, hfinished, hslot, hresult⟩ : ∃ s : Workshop,
      s.Reached hastyOptions faultyHeader ∧ s.Finished jobs
      ∧ s.slots 1 = some (.error (.number .tooLargeForDouble))
      ∧ s.result.map gather = .error (.lacks "int" "strip") :=
    ⟨_, met, ⟨rfl, rfl, fun hgoing => by cases hgoing⟩, congrArg some hsecond, rfl⟩
  obtain ⟨hgives, -, -, hlowers⟩ := workers_keep_order hastyOptions faultyHeader
  have hinOrder := hgives s hreached hfinished
  have hlower := (hlowers _).mp (.onPool (by decide) (by decide) hreached hfinished)
  exact ⟨s, hreached, hfinished, by decide, hslot, hresult, hinOrder.symm.trans hresult,
    hlower.symm.trans hresult⟩

end Interop.Binding
