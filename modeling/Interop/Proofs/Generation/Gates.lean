import Interop.Proofs.Binding.Types
import Interop.Proofs.Config.Merge
import Interop.Proofs.Decl.Reading
import Interop.Proofs.Generation.Policy
import Interop.Proofs.Source.Faults

/-!
# What the checks rule out

A model is checked against the schema, and a configuration before it is used.  With both passed and
a text for the name of the boolean type, bindings are generated, unless numbers are at fault: an
integer with too many digits, a count of elements that is a double, or a double that meets an
integer too large for one (`generate_of_checks`).
-/

set_option autoImplicit false

namespace Interop.Generation

open Value (Entries)
open Source (ArrayFault)
open Source.EmissionError (FaultIn)

/-- The faults that no check rules out. -/
inductive Unchecked (o : Binding.Options) (h : Decl.Header) : Fault → Prop
  | digits {fault : Fault} (limit : fault.IsDigitLimit) : Unchecked o h fault
  | record (sum : Binding.SumFails o (Binding.allNested h.records)) :
      Unchecked o h (.number .tooLargeForDouble)
  | elements {t : Decl.TypeUse} {fault : Fault} (field : t ∈ Binding.fieldTypes h)
      (array : ArrayFault t.sizeOf t.arraySize fault) : Unchecked o h fault

variable {config inner : Entries} {p : Config.Policy} {o : Binding.Options} {names : Names}

/-- A configuration that can be used gives a profile to every library with a name. -/
theorem exists_profile (h : Config.Usable config inner p o)
    (hname : names.libraryName.isTruthy = true) (elements : Binding.ElementTable) :
    ∃ profile, Generation.profile names (.table inner) elements = .ok profile := by
  obtain ⟨className, hclass⟩ := exists_nameOr names.className inner "class_name"
  obtain ⟨namespaceName, hnamespace⟩ := exists_nameOr names.namespaceName inner "namespace"
  have husings : ∃ items, Config.getOr (.table inner) "usings" Source.defaultUsings
      = .ok (.list items) := by
    rw [Config.getOr_table]
    rcases h.usings with hnone | ⟨items, hitems⟩
    · rw [hnone]
      exact ⟨_, rfl⟩
    · rw [hitems]
      exact ⟨items, rfl⟩
  obtain ⟨items, hitems⟩ := husings
  unfold Generation.profile Source.Profile.make
  rw [hclass, hnamespace, hitems, hname]
  exact ⟨_, rfl⟩

/-- The faults of a generation: those that no check rules out, and those of the name of the boolean
type. -/
def MakingFault (o : Binding.Options) (h : Decl.Header) (fault : Fault) : Prop :=
  Unchecked o h fault ∨ Binding.Nameless o fault

theorem ofDecl_named (o : Binding.Options) (header : Decl.Header) (t : Decl.TypeUse) :
    Source.Named (MakingFault o header) (.ofDecl o.booleanTypeName t) :=
  (Binding.ofDecl_characters o t).failing fun _ => .inr

theorem lower_ends (o : Binding.Options) (header : Decl.Header) :
    Ends (Binding.lower o header)
      (fun l => l.bindings.Typed (Source.Named (MakingFault o header))
        (Binding.TypeFrom o (Binding.fieldTypes header)))
      (MakingFault o header) where
  result hl := Binding.lower_typed (ofDecl_named o header) hl
  failure hl := by
    obtain ⟨d, hd, hfault⟩ := (Binding.lower_ends o header).failure hl
    rcases Binding.declaration_fault o header d hd _ hfault with (hlimit | ⟨rfl, hsum⟩) | hnameless
    · exact .inl (.digits hlimit)
    · exact .inl (.record hsum)
    · exact .inr hnameless

/-- The faults of the type of a field are those of the one in the header. -/
theorem makingFault_of_field {header : Decl.Header} {f : Binding.Field}
    (h : Binding.TypeFrom o (Binding.fieldTypes header) f) :
    Source.Named (MakingFault o header) f.type
      ∧ ∀ fault, Source.TypeFault f.type fault → MakingFault o header fault := by
  obtain ⟨t, ht, htype⟩ := h
  rw [htype]
  refine ⟨ofDecl_named o header t, fun fault hfault => .inl ?_⟩
  rcases hfault with hlimit | harray
  · exact .digits hlimit
  · exact .elements ht harray

/-- Under a configuration that can be used, generation has no faults but those that no check rules
out and those of the name of the boolean type. -/
theorem generate_ends (h : Config.Usable config inner p o)
    (hname : names.libraryName.isTruthy = true) (header : Decl.Header) :
    Ends (generate (.table config) names header) (fun _ => True)
      (FaultIn (MakingFault o header)) := by
  obtain ⟨profile, hprofile⟩ := exists_profile h hname o.elements
  unfold generate
  refine Ends.of_ok (mapError_eq_ok.mpr h.found.sectionOrEmpty) ?_
  refine Ends.of_ok (mapError_eq_ok.mpr h.options) ?_
  refine (Source.faulty_ends (lower_ends o header)).bind fun lowered htyped => ?_
  refine Ends.of_ok hprofile ?_
  refine (Source.emit_ends (fun _ hlimit => .inl (.digits hlimit)) ?_).bind
    fun _ _ => Ends.ok trivial
  exact htyped.mono fun _ => makingFault_of_field

/-- Bindings are generated from every model that fits the schema, under every configuration over the
default one that passes its check and has a text for the boolean type, for every library with a
name; what can still be in the way are faults that no check rules out. -/
theorem generate_of_checks {document : Value} {user : Entries}
    (hfits : Schema.check document = none)
    (hmerge : Config.merge user Config.defaults = .ok config)
    (hcheck : Config.check (.table config) = .ok ())
    (hname : names.libraryName.isTruthy = true)
    (hboolean : ∀ o, Config.loweringOptions (.table config) = .ok o →
      ∃ name, o.booleanTypeName = .text name) :
    ∃ header o, Decl.Header.ofValue document = .ok header
      ∧ Config.loweringOptions (.table config) = .ok o
      ∧ ((∃ made, generate (.table config) names header = .ok made)
        ∨ ∃ fault, generate (.table config) names header = .error (.fault fault)
          ∧ Unchecked o header fault) := by
  obtain ⟨header, hheader⟩ := Decl.exists_ofValue hfits
  obtain ⟨inner, p, o, husable⟩ := Config.exists_usable (Config.sectioned_merge hmerge) hcheck
  obtain ⟨name, hname'⟩ := hboolean o husable.options
  have hends := generate_ends husable hname header
  refine ⟨header, o, hheader, husable.options, ?_⟩
  cases hgenerate : generate (.table config) names header with
  | ok made => exact .inl ⟨made, rfl⟩
  | error e =>
    obtain ⟨hfault⟩ := hends.failure hgenerate
    exact .inr ⟨_, rfl, hfault.resolve_right (Binding.not_nameless hname' _)⟩

/-- A model with a record whose field is an array of this many points. -/
def pointsDocument (count : Number) : Value :=
  let location (line : Int) : Value :=
    .table [("file_name", .text "p.h"), ("kind", .text ""), ("line", .int line)]
  let points : Value :=
    .table [("name", .text "Point"), ("size_of", .int 8), ("align_of", .int 4),
      ("array_size", .number count)]
  .table [("records", .list [.table [("name", .text "Path"), ("location", location 3),
    ("type", .table [("name", .text "Path"), ("size_of", .int 8), ("align_of", .int 4)]),
    ("fields", .list [.table [("name", .text "points"), ("location", location 4), ("type", points),
      ("offset", .int 0), ("padding", .int 0)]])]])]

def pathNames : Names := ⟨.text "paths", .null, .null⟩

/-- A model may count the elements of an array by a double, and then there is no telling how many
there are. -/
theorem generate_of_checks_points :
    ∃ header o, Decl.Header.ofValue (pointsDocument (.double (.ofInt 2))) = .ok header
      ∧ generate (.table Config.defaults) pathNames header = .error (.fault (.notACount "float"))
      ∧ Unchecked o header (.notACount "float") := by
  have hfits : Schema.check (pointsDocument (.double (.ofInt 2))) = none :=
    Option.isNone_iff_eq_none.mp (by decide +kernel)
  obtain ⟨header, o, hheader, hoptions, hends⟩ :=
    @generate_of_checks Config.defaults pathNames _ [] hfits rfl rfl rfl
      fun o ho => ⟨"CBool", by cases ho; rfl⟩
  have hfails : (match Decl.Header.ofValue (pointsDocument (.double (.ofInt 2))) with
      | .ok header => match generate (.table Config.defaults) pathNames header with
        | .ok _ => none
        | .error e => some e
      | .error _ => none) = some (.fault (.notACount "float")) := by decide +kernel
  rw [hheader] at hfails
  rcases hends with ⟨made, hmade⟩ | ⟨fault, hfault, hunchecked⟩
  · simp only [hmade] at hfails
    cases hfails
  · simp only [hfault] at hfails
    cases hfails
    exact ⟨header, o, hheader, hfault, hunchecked⟩

end Interop.Generation
