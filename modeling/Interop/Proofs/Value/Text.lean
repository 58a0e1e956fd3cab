import Interop.Json.Writer
import Interop.Proofs.Binding.Faults

/-!
# Texts of values

A value of any kind has a text, unless an integer in it has too many digits.  In JSON there are no
moments either.
-/

set_option autoImplicit false

namespace Interop.Value

open Binding (DigitLimited)

mutual

theorem quotedText_ends : ∀ v : Value, Ends (quotedText v) (fun _ => True) DigitLimited
  | .null => Ends.ok trivial
  | .bool true => Ends.ok trivial
  | .bool false => Ends.ok trivial
  | .number n => Binding.text_digitLimited n
  | .text _ => Ends.ok trivial
  | .stamp _ => Ends.ok trivial
  | .list items => by
    unfold quotedText
    exact (itemTexts_ends items).bind fun _ _ => Ends.ok trivial
  | .table entries => by
    unfold quotedText
    exact (entryTexts_ends entries).bind fun _ _ => Ends.ok trivial

theorem itemTexts_ends : ∀ items : List Value,
    Ends (itemTexts items) (fun _ => True) DigitLimited
  | [] => Ends.ok trivial
  | v :: rest => by
    unfold itemTexts
    refine (quotedText_ends v).bind fun _ _ => ?_
    exact (itemTexts_ends rest).bind fun _ _ => Ends.ok trivial

theorem entryTexts_ends : ∀ entries : Entries,
    Ends (entryTexts entries) (fun _ => True) DigitLimited
  | [] => Ends.ok trivial
  | (k, v) :: rest => by
    unfold entryTexts
    refine (quotedText_ends v).bind fun _ _ => ?_
    exact (entryTexts_ends rest).bind fun _ _ => Ends.ok trivial

end

theorem plainText_ends (v : Value) : Ends (plainText v) (fun _ => True) DigitLimited := by
  cases v with
  | text s => exact Ends.ok trivial
  | stamp s => exact Ends.ok trivial
  | _ => exact quotedText_ends _

theorem shown_ends (v : Value) : Ends v.shown (fun _ => True) Fault.IsDigitLimit :=
  Ends.mapError (plainText_ends v)

end Interop.Value

namespace Interop.Json

/-- The faults of values that JSON cannot spell. -/
def Unspellable (fault : Fault) : Prop := fault.IsDigitLimit ∨ ∃ kind, fault = .notInJson kind

theorem numberText_ends (n : Number) :
    Ends ((numberText n).mapError .number) (fun _ => True) Unspellable := by
  have htext : Ends (numberText n) (fun _ => True) Binding.DigitLimited := by
    unfold numberText
    split
    · exact Ends.ok trivial
    · exact Ends.ok trivial
    · exact Ends.ok trivial
    · exact Binding.text_digitLimited n
  exact Ends.mapError (htext.failing fun _ h => .inl h)

mutual

theorem valueText_ends (style : Style) : ∀ (depth : Nat) (v : Value),
    Ends (valueText style depth v) (fun _ => True) Unspellable
  | _, .null => Ends.ok trivial
  | _, .bool true => Ends.ok trivial
  | _, .bool false => Ends.ok trivial
  | _, .number n => numberText_ends n
  | _, .text _ => Ends.ok trivial
  | _, .stamp s => Ends.error (.inr ⟨s.shortKind, rfl⟩)
  | depth, .list items => by
    unfold valueText
    exact (itemTexts_ends style (depth + 1) items).bind fun _ _ => Ends.ok trivial
  | depth, .table entries => by
    unfold valueText
    exact (memberTexts_ends style (depth + 1) entries).bind fun _ _ => Ends.ok trivial

theorem itemTexts_ends (style : Style) : ∀ (depth : Nat) (items : List Value),
    Ends (itemTexts style depth items) (fun _ => True) Unspellable
  | _, [] => Ends.ok trivial
  | depth, v :: rest => by
    unfold itemTexts
    refine (valueText_ends style depth v).bind fun _ _ => ?_
    exact (itemTexts_ends style depth rest).bind fun _ _ => Ends.ok trivial

theorem memberTexts_ends (style : Style) : ∀ (depth : Nat) (entries : Value.Entries),
    Ends (memberTexts style depth entries) (fun _ => True) Unspellable
  | _, [] => Ends.ok trivial
  | depth, (_, v) :: rest => by
    unfold memberTexts
    refine (valueText_ends style depth v).bind fun _ _ => ?_
    exact (memberTexts_ends style depth rest).bind fun _ _ => Ends.ok trivial

end

end Interop.Json
