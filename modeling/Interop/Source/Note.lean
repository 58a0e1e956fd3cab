import Interop.Source.Unit

/-!
# Notes on emission

Emission has something to say about a field whose array gets a wrapper though the field was not
marked for one.  Notes come in the order in which the texts are made, and end where the first text
cannot be made.
-/

set_option autoImplicit false

namespace Interop.Source

open Binding

/-- An array that cannot be declared in place. -/
structure Note where
  type : Value
  field : String
  count : Option Number
deriving Repr

/-- The notes of a part of emission, and whether all its texts could be made. -/
structure Trace where
  notes : List Note
  complete : Bool
deriving Repr

namespace Trace

def empty : Trace := ⟨[], true⟩

/-- A part that nothing is noted about. -/
def ofResult {ε α : Type} (r : Except ε α) : Trace := ⟨[], r.isOk⟩

/-- A part and the one after it, which is only reached if the first is complete. -/
def append (a b : Trace) : Trace := if a.complete then ⟨a.notes ++ b.notes, b.complete⟩ else a

def join (ts : List Trace) : Trace := ts.foldr append empty

end Trace

def fieldTrace (elements : ElementTable) (f : Field) : Trace :=
  let notes := match needsWrapper elements f with
    | .ok true => if f.isWrapped then [] else [⟨f.type.name, f.name, f.type.count⟩]
    | _ => []
  ⟨notes, (fieldText elements f).isOk⟩

mutual

def Struct.trace (elements : ElementTable) : Struct → Trace
  | ⟨name, comment, type, fields, nested⟩ =>
    Trace.join
      [Trace.join (fields.map (fieldTrace elements)),
       .ofResult (wrapperTexts elements fields),
       nestedTrace elements nested,
       .ofResult (structText name comment type [])]

def nestedTrace (elements : ElementTable) : List Struct → Trace
  | [] => .empty
  | s :: rest => (Struct.trace elements s).append (nestedTrace elements rest)

end

def functionPointerTrace (elements : ElementTable) (p : FunctionPointer) : Trace :=
  (fieldTrace elements (pointerField p.type)).append
    (.ofResult (functionPointerText elements p))

/-- The notes on the members of a class. -/
def memberTrace (elements : ElementTable) (b : Bindings) : Trace :=
  Trace.join
    [.ofResult (b.functions.mapM functionText),
     Trace.join (b.functionPointers.map (functionPointerTrace elements)),
     nestedTrace elements b.structs]

end Interop.Source
