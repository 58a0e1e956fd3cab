import Interop.Decl.Describe
import Interop.Proofs.Text.Lines

/-!
# Locations in a header

Every declaration of a header has a location, and so have parameters, fields and members.
`Header.unlocated` is the header without any of them: two headers are the same but for locations if
they are the same without.
-/

set_option autoImplicit false

namespace Interop.Decl

/-! ## Headers without locations -/

def Parameter.unlocated (p : Parameter) : Parameter := { p with location := none }

def Function.unlocated (f : Function) : Function :=
  { f with location := none, parameters := f.parameters.map Parameter.unlocated }

def FunctionPointer.unlocated (p : FunctionPointer) : FunctionPointer := { p with location := none }

def Field.unlocated (f : Field) : Field := { f with location := none }

mutual

def Record.unlocated : Record → Record
  | ⟨name, _, type, fields, nested⟩ =>
    ⟨name, none, type, fields.map Field.unlocated, nestedUnlocated nested⟩

def nestedUnlocated : List Record → List Record
  | [] => []
  | r :: rest => Record.unlocated r :: nestedUnlocated rest

end

def OpaquePointer.unlocated (p : OpaquePointer) : OpaquePointer := { p with location := none }

def OpaqueType.unlocated (t : OpaqueType) : OpaqueType := { t with location := none }

def Alias.unlocated (a : Alias) : Alias := { a with location := none }

def EnumMember.unlocated (m : EnumMember) : EnumMember := { m with location := none }

def Enumeration.unlocated (e : Enumeration) : Enumeration :=
  { e with location := none, members := e.members.map EnumMember.unlocated }

def Header.unlocated (h : Header) : Header where
  functions := h.functions.map Function.unlocated
  functionPointers := h.functionPointers.map FunctionPointer.unlocated
  records := h.records.map Record.unlocated
  opaquePointers := h.opaquePointers.map OpaquePointer.unlocated
  opaqueTypes := h.opaqueTypes.map OpaqueType.unlocated
  aliases := h.aliases.map Alias.unlocated
  enumerations := h.enumerations.map Enumeration.unlocated

/-! ## All locations of a header -/

def Function.locations (f : Function) : List Location :=
  f.location.toList ++ f.parameters.flatMap (·.location.toList)

mutual

def Record.locations : Record → List Location
  | ⟨_, location, _, fields, nested⟩ =>
    location.toList ++ fields.flatMap (·.location.toList) ++ nestedLocations nested

def nestedLocations : List Record → List Location
  | [] => []
  | r :: rest => Record.locations r ++ nestedLocations rest

end

def Enumeration.locations (e : Enumeration) : List Location :=
  e.location.toList ++ e.members.flatMap (·.location.toList)

def Header.locations (h : Header) : List Location :=
  h.functions.flatMap Function.locations ++ h.functionPointers.flatMap (·.location.toList)
    ++ h.records.flatMap Record.locations ++ h.opaquePointers.flatMap (·.location.toList)
    ++ h.opaqueTypes.flatMap (·.location.toList) ++ h.aliases.flatMap (·.location.toList)
    ++ h.enumerations.flatMap Enumeration.locations

/-! ## The comment for a location -/

/-- No line ends inside the strings of the location. -/
structure Location.OneLine (l : Location) : Prop where
  kind : Text.SingleLine l.kind.toList
  fileName : Text.SingleLine l.fileName.toList
  dateTime : Text.SingleLine l.dateTime.toList

/-- The number of the line has no more digits than can be written. -/
def Location.Writable (l : Location) : Prop := ∃ t, l.line.text = .ok t

end Interop.Decl
