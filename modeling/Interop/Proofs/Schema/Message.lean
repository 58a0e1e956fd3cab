import Interop.Proofs.Number.Text
import Interop.Schema.Violation

/-!
# Violations can be told

A message shows the part of the document that breaks the shape, and a part with an integer of more
digits than the limit cannot be written.  In a document without such integers every violation has
its message (`message_of_short`).
-/

set_option autoImplicit false

namespace Interop.Value

/-- Every integer in the value has few enough digits to be written. -/
inductive Short : Value → Prop
  | null : Short .null
  | bool (b : Bool) : Short (.bool b)
  | int {n : Int} (h : Number.Short n) : Short (.number (.int n))
  | double (x : Binary64) : Short (.number (.double x))
  | text (s : String) : Short (.text s)
  | stamp (s : Stamp) : Short (.stamp s)
  | list {items : List Value} (h : ∀ item ∈ items, Short item) : Short (.list items)
  | table {entries : Entries} (h : ∀ e ∈ entries, Short e.2) : Short (.table entries)

mutual

theorem quotedText_of_short : ∀ v : Value, Short v → ∃ t, quotedText v = .ok t
  | .null, _ => ⟨_, rfl⟩
  | .bool true, _ => ⟨_, rfl⟩
  | .bool false, _ => ⟨_, rfl⟩
  | .number (.double _), _ => ⟨_, rfl⟩
  | .number (.int n), .int hn => by
    show ∃ t, Number.intText n = .ok t
    cases htext : Number.intText n with
    | ok t => exact ⟨t, rfl⟩
    | error e => exact absurd hn ((Number.intText_ends n).failure htext).2
  | .text _, _ => ⟨_, rfl⟩
  | .stamp _, _ => ⟨_, rfl⟩
  | .list items, .list hitems => by
    obtain ⟨ts, hts⟩ := itemTexts_of_short items hitems
    exact ⟨_, by rw [quotedText, hts]; rfl⟩
  | .table entries, .table hentries => by
    obtain ⟨ts, hts⟩ := entryTexts_of_short entries hentries
    exact ⟨_, by rw [quotedText, hts]; rfl⟩

theorem itemTexts_of_short : ∀ items : List Value,
    (∀ item ∈ items, Short item) → ∃ ts, itemTexts items = .ok ts
  | [], _ => ⟨_, rfl⟩
  | v :: rest, h => by
    obtain ⟨t, ht⟩ := quotedText_of_short v (h v List.mem_cons_self)
    obtain ⟨ts, hts⟩ := itemTexts_of_short rest
      fun item hitem => h item (List.mem_cons_of_mem _ hitem)
    exact ⟨_, by rw [itemTexts, ht, hts]; rfl⟩

theorem entryTexts_of_short : ∀ entries : Entries,
    (∀ e ∈ entries, Short e.2) → ∃ ts, entryTexts entries = .ok ts
  | [], _ => ⟨_, rfl⟩
  | (k, v) :: rest, h => by
    obtain ⟨t, ht⟩ := quotedText_of_short v (h (k, v) List.mem_cons_self)
    obtain ⟨ts, hts⟩ := entryTexts_of_short rest fun e he => h e (List.mem_cons_of_mem _ he)
    exact ⟨_, by rw [entryTexts, ht, hts]; rfl⟩

end

end Interop.Value

namespace Interop.Schema

open Value (Entries)

/-- What the message shows of the document can be written. -/
def Breach.Short : Breach → Prop
  | wrongKind _ v | notAmong _ v | negative v => v.Short
  | emptyText | unexpected _ | missing _ => True

theorem Breach.message_of_short {b : Breach} (h : b.Short) : ∃ t, b.message = .ok t := by
  have hshown {v : Value} (hv : v.Short) (f : List Char → List Char) :
      ∃ t, (do return f (← v.quotedText)) = (.ok t : Except NumberFault _) := by
    obtain ⟨t, ht⟩ := v.quotedText_of_short hv
    exact ⟨f t, by rw [ht]; rfl⟩
  cases b with
  | wrongKind expected v => exact hshown h fun t => t ++ _ ++ _
  | notAmong words v => exact hshown h fun t => t ++ _ ++ _ ++ _
  | negative v => exact hshown h fun t => t ++ _
  | emptyText => exact ⟨_, rfl⟩
  | unexpected keys => exact ⟨_, rfl⟩
  | missing key => exact ⟨_, rfl⟩

theorem kindViolation_short {fits : Bool} {expected : List String} {v : Value} (hv : v.Short) :
    ∀ x ∈ kindViolation fits expected v, x.breach.Short := by
  intro x hx
  unfold kindViolation at hx
  split at hx
  · cases hx
  · obtain rfl := List.mem_singleton.mp hx
    exact hv

theorem signViolation_short {fits : Bool} {v : Value} (hv : v.Short) :
    ∀ x ∈ signViolation fits v, x.breach.Short := by
  intro x hx
  unfold signViolation at hx
  split at hx
  · split at hx
    · obtain rfl := List.mem_singleton.mp hx
      exact hv
    · cases hx
  · cases hx

/-- What breaks the rule of a value by itself shows this value. -/
theorem scalarViolations_short {rule : Rule} {v : Value} (hv : v.Short) :
    ∀ x ∈ scalarViolations rule v, x.breach.Short := by
  intro x hx
  cases rule with
  | text | integer | flag => exact kindViolation_short hv x hx
  | natural | naturalOrNull =>
    rcases List.mem_append.mp hx with hx | hx
    · exact kindViolation_short hv x hx
    · exact signViolation_short hv x hx
  | filledText =>
    rcases List.mem_append.mp hx with hx | hx
    · exact kindViolation_short hv x hx
    · cases v with
      | text s =>
        dsimp only at hx
        split at hx
        · obtain rfl := List.mem_singleton.mp hx
          trivial
        · cases hx
      | _ => cases hx
  | oneOf words =>
    have hwords : x ∈ [⟨[], .notAmong words v, false⟩] → x.breach.Short := by
      intro hx
      obtain rfl := List.mem_singleton.mp hx
      exact hv
    cases v with
    | text s =>
      dsimp only [scalarViolations] at hx
      split at hx
      · cases hx
      · exact hwords hx
    | _ => exact hwords hx
  | object shape | array shape =>
    obtain rfl := List.mem_singleton.mp hx
    exact hv

theorem short_of_mem_within {step : Step} {vs : List Violation}
    (h : ∀ x ∈ vs, x.breach.Short) : ∀ x ∈ vs.map (·.within step), x.breach.Short := by
  intro x hx
  obtain ⟨x', hx', rfl⟩ := List.mem_map.mp hx
  exact h x' hx'

-- A violation found further inside shows a part of the value, so the induction is on the value.
mutual

theorem violations_short (rule : Rule) : ∀ v : Value, v.Short →
    ∀ x ∈ violations rule v, x.breach.Short
  | .table entries, .table hentries => by
    intro x hx
    cases rule with
    | object shape =>
      rw [violations, List.mem_append, List.mem_append] at hx
      rcases hx with (hx | hx) | hx
      · unfold unexpectedMembers at hx
        split at hx
        · cases hx
        · obtain rfl := List.mem_singleton.mp hx
          trivial
      · obtain ⟨m, -, rfl⟩ := List.mem_map.mp hx
        trivial
      · obtain ⟨m, -, hx⟩ := List.mem_flatMap.mp hx
        exact memberViolations_short m.key m.rule entries hentries x hx
    | _ =>
      simp only [violations] at hx
      exact scalarViolations_short (.table hentries) x hx
  | .list items, .list hitems => by
    cases rule with
    | array shape =>
      rw [violations]
      exact itemViolations_short shape 0 items hitems
    | _ =>
      simp only [violations]
      exact scalarViolations_short (.list hitems)
  | .null, hv | .bool _, hv | .number _, hv | .text _, hv | .stamp _, hv => by
    rw [violations]
    · exact scalarViolations_short hv
    all_goals simp

theorem memberViolations_short (key : String) (rule : Rule) : ∀ entries : Entries,
    (∀ e ∈ entries, e.2.Short) → ∀ x ∈ memberViolations key rule entries, x.breach.Short
  | [], _ => by simp [memberViolations]
  | (k, v) :: rest, h => by
    rw [memberViolations]
    split
    · exact short_of_mem_within (violations_short rule v (h (k, v) List.mem_cons_self))
    · exact memberViolations_short key rule rest fun e he => h e (List.mem_cons_of_mem _ he)

theorem itemViolations_short (shape : Shape) : ∀ (index : Nat) (items : List Value),
    (∀ item ∈ items, item.Short) → ∀ x ∈ itemViolations shape index items, x.breach.Short
  | _, [], _ => by simp [itemViolations]
  | index, v :: rest, h => by
    intro x hx
    rw [itemViolations] at hx
    rcases List.mem_append.mp hx with hx | hx
    · exact short_of_mem_within (violations_short (.object shape) v (h v List.mem_cons_self)) x hx
    · exact itemViolations_short shape (index + 1) rest
        (fun item hitem => h item (List.mem_cons_of_mem _ hitem)) x hx

end

/-- The violation that is reported is one of those found. -/
theorem worst_mem {vs : List Violation} {x : Violation} (h : worst vs = some x) : x ∈ vs := by
  have hfold (rest : List Violation) : ∀ best : Violation,
      rest.foldl (fun best v => if v.outranks best then v else best) best ∈ best :: rest := by
    induction rest with
    | nil => exact fun best => List.mem_cons_self
    | cons v rest ih =>
      intro best
      rw [List.foldl_cons]
      split
      · exact List.mem_cons_of_mem _ (ih v)
      · rcases List.mem_cons.mp (ih best) with hbest | hrest
        · rw [hbest]
          exact List.mem_cons_self
        · exact List.mem_cons_of_mem _ (List.mem_cons_of_mem _ hrest)
  cases vs with
  | nil => cases h
  | cons v rest =>
    cases h
    exact hfold rest v

/-- What is wrong with a document without overlong integers can be told. -/
theorem message_of_short {v : Value} (hv : v.Short) {x : Violation} (h : check v = some x) :
    ∃ message, x.message = .ok message := by
  have hbreach := violations_short (.object .document) v hv x (worst_mem h)
  obtain ⟨t, ht⟩ := Breach.message_of_short hbreach
  exact ⟨_, by rw [Violation.message, ht]; rfl⟩

end Interop.Schema
