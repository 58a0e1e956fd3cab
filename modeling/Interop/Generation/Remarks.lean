import Interop.Generation.Bindings
import Interop.Log.Remark
import Interop.Source.Note

/-!
# Remarks on generation

What there is to say while the bindings of a header are made: each refusal as it happens, how many
declarations were lowered, each array that needs a wrapper, and how many declarations were written.
The remarks end at the first fault, as generation does.
-/

set_option autoImplicit false

namespace Interop.Generation

open Log (Remark Level)

def aboutLowering (message : String) (values : List Value) : Remark :=
  ⟨Level.debug, "csharp.mapper", message, values⟩

def aboutEmission (message : String) (values : List Value) : Remark :=
  ⟨Level.debug, "csharp.code_generator", message, values⟩

/-- A text as a value for a slot. -/
def slot (t : List Char) : Value := .text (String.ofList t)

/-- A refusal, unless it cannot be put into words. -/
def refusal? (f : Binding.Failure) : Option Remark :=
  f.refusal.message.toOption.map fun t =>
    aboutLowering "Failed to map %s %s: %s" [.text f.kind.name, .text f.refusal.name, slot t]

def loweredCount (h : Decl.Header) (l : Binding.Lowered) : Remark :=
  aboutLowering "Mapped %d declarations, %d failed"
    [.int (h.size - l.failures.length), .int l.failures.length]

def wrapping (n : Source.Note) : Remark :=
  aboutEmission "Wrapping %s %s[%s]: not a fixed buffer element type"
    [n.type, .text n.field, (n.count.map Value.number).getD .null]

def writtenCount (p : Source.Profile) (e : Source.Emitted) : Remark :=
  aboutEmission "Rendered %d declarations for %s" [.int e.declaredNames.length, p.className]

/-- The remarks on emission. -/
def emissionRemarks (names : Names) (bindgen : Value) (options : Binding.Options)
    (l : Binding.Lowered) : List Remark :=
  match profile names bindgen options.elements with
  | .error _ => []
  | .ok p =>
    (Source.memberTrace p.elements l.bindings).notes.map wrapping
      ++ ((Source.emit p l.bindings).toOption.map (writtenCount p)).toList

/-- The remarks on a whole generation. -/
def remarks (config : Value) (names : Names) (h : Decl.Header) : List Remark :=
  match Config.sectionOrEmpty config "bindgen", Config.loweringOptions config with
  | .ok bindgen, .ok options =>
    (Binding.failuresUntilFault options h).filterMap refusal?
      ++ match Binding.lower options h with
        | .error _ => []
        | .ok l => loweredCount h l :: emissionRemarks names bindgen options l
  | _, _ => []

end Interop.Generation
