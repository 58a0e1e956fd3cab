import Interop.Proofs.Source.Blocks
import Interop.Proofs.Source.FileLines

/-!
# Reserved words among the declared names

The names of functions, of parameters and of fields are escaped where they are reserved, and no name
that is made up on the way is reserved: neither that of a wrapper nor that of a slot or of the field
of a wrapped pointer.  The names of all other declarations are handed on as they are.  So a reserved
word is declared only in a place that is not escaped, for a declaration of the header that is called
so (`reserved_names_kept`), and a header that has no such declaration has no reserved word declared
in its file.
-/

set_option autoImplicit false

namespace Interop.Source

open Binding Text

/-! ## Declared names -/

/-- The places in which a file declares a name. -/
inductive Position
  | function
  | parameter
  | struct
  | field
  | functionPointer
  | opaqueType
  | enumeration
  | enumMember
deriving DecidableEq, Repr

/-- A name in its place. -/
abbrev Declared := Position × String

/-- The names that a block declares, those of its wrappers and of the blocks nested in it
included. -/
def StructBlock.names (b : StructBlock) : List Declared :=
  b.withInner.flatMap fun inner =>
    (.struct, inner.name) :: inner.fields.map fun line => (.field, line.name)

/-- The names that the text of a member declares. -/
def declaredNames (elements : ElementTable) : Member → Except EmissionError (List Declared)
  | .function f => .ok ((.function, f.name) :: f.parameters.map fun p => (.parameter, p.name))
  | .functionPointer p => do
    let b ← functionPointerBlock elements p
    return (.functionPointer, b.name) :: b.fields.map fun line => (.field, line.name)
  | .struct s => do return (← Struct.block elements s).names
  | .opaqueStruct s => .ok [(.opaqueType, s.name)]
  | .enumeration e => .ok ((.enumeration, e.name) :: e.members.map fun m => (.enumMember, m.name))

/-- The names of a header that stand in the bindings as they are, reserved or not.  Functions,
parameters and fields have none. -/
def keptNames (h : Decl.Header) : Position → List String
  | .function => []
  | .parameter => []
  | .struct => (allNested h.records).map (·.name) ++ h.aliases.map (·.name)
    ++ h.opaquePointers.map (·.name)
  | .field => []
  | .functionPointer => h.functionPointers.map (·.name)
  | .opaqueType => h.opaqueTypes.map (·.name)
  | .enumeration => h.enumerations.map (·.name)
  | .enumMember => h.enumerations.flatMap fun e => e.members.map (·.name)

/-! ## Names that are not reserved -/

theorem reservedWords_lower :
    ∀ word ∈ reservedWords, word.toList.head?.all Char.isLower = true := by
  decide +kernel

/-- A name that begins with anything but a small letter is not reserved. -/
theorem not_reserved {name : String} {c : Char} (hhead : name.toList.head? = some c)
    (hc : c.isLower = false) : name ∉ reservedWords := by
  intro hmem
  have hlower := reservedWords_lower name hmem
  rw [hhead, Option.all_some, hc] at hlower
  cases hlower

theorem escapeReserved_not_reserved (name : String) :
    escapeReserved reservedWords name ∉ reservedWords := by
  unfold escapeReserved
  split
  · refine not_reserved (c := '@') ?_ (by decide)
    rw [String.toList_append]
    rfl
  · next hname => exact fun hmem => hname (List.contains_iff_mem.mpr hmem)

theorem wrapperName_not_reserved (f : Field) : wrapperName f ∉ reservedWords := by
  refine not_reserved (c := '_') ?_ (by decide)
  unfold wrapperName
  rw [String.toList_ofList]
  rfl

theorem slot_not_reserved {t : TypeUse} {size : Number} {index : Nat} {f : Field}
    (h : slot t size index = .ok f) : f.name ∉ reservedWords := by
  obtain ⟨offset, -, hslot⟩ := bind_eq_ok.mp h
  cases hslot
  refine not_reserved (c := '_') ?_ (by decide)
  rw [String.toList_append]
  rfl

/-! ## Structs -/

/-- Reserved words are names of structs only if they are kept, and of fields never. -/
structure StructBlock.Clean (kept : List String) (b : StructBlock) : Prop where
  name : b.name ∈ reservedWords → b.name ∈ kept
  fields : ∀ line ∈ b.fields, line.name ∉ reservedWords

/-- The same of a struct and of all structs nested in it. -/
inductive Struct.Clean (kept : List String) : Struct → Prop
  | mk {name comment : String} {type : TypeUse} {fields : List Field} {nested : List Struct}
      (name_kept : name ∈ reservedWords → name ∈ kept)
      (fields_clean : ∀ f ∈ fields, f.name ∉ reservedWords)
      (nested_clean : ∀ s ∈ nested, Struct.Clean kept s) :
      Struct.Clean kept ⟨name, comment, type, fields, nested⟩

theorem Struct.Clean.mono {kept kept' : List String} (hkept : ∀ n ∈ kept, n ∈ kept') {s : Struct}
    (h : Struct.Clean kept s) : Struct.Clean kept' s := by
  induction h with
  | mk hname hfields _ ih => exact .mk (fun hn => hkept _ (hname hn)) hfields ih

section Emission

variable {elements : ElementTable} {kept : List String}

theorem name_fieldLine {f : Field} {line : FieldLine} (h : fieldLine elements f = .ok line) :
    line.name = f.name := by
  obtain ⟨storage, -, hline⟩ := bind_eq_ok.mp h
  cases hline
  rfl

theorem fieldLines_clean {fields : List Field} {lines : List FieldLine}
    (hlines : fields.mapM (fieldLine elements) = .ok lines)
    (hfields : ∀ f ∈ fields, f.name ∉ reservedWords) :
    ∀ line ∈ lines, line.name ∉ reservedWords := by
  intro line hmem
  obtain ⟨f, hf, hline⟩ := exists_of_forall₂ (mapM_eq_ok.mp hlines) hmem
  rw [name_fieldLine hline]
  exact hfields f hf

theorem wrapperBlock_clean {f : Field} {b : StructBlock} (h : wrapperBlock elements f = .ok b) :
    ∀ inner ∈ b.withInner, inner.Clean kept := by
  obtain ⟨layout, -, h⟩ := bind_eq_ok.mp h
  obtain ⟨lines, hlines, h⟩ := bind_eq_ok.mp h
  cases h
  intro inner hinner
  obtain rfl : inner = ⟨wrapperName f, "", f.type, lines, [], []⟩ := by
    simpa [StructBlock.withInner, blocksWithInner] using hinner
  refine ⟨fun hname => absurd hname (wrapperName_not_reserved f), ?_⟩
  refine forall_of_forall₂ (mapM_eq_ok.mp hlines) fun index line hline => ?_
  obtain ⟨s, hs, hline⟩ := bind_eq_ok.mp hline
  rw [name_fieldLine hline]
  exact slot_not_reserved (mapError_eq_ok.mp hs)

theorem wrapperBlocks_clean {fields : List Field} {ws : List StructBlock}
    (h : wrapperBlocks elements fields = .ok ws) : ∀ b ∈ blocksWithInner ws, b.Clean kept := by
  induction fields generalizing ws with
  | nil =>
    cases h
    simp [blocksWithInner]
  | cons f rest ih =>
    unfold wrapperBlocks at h
    obtain ⟨needs, -, h⟩ := bind_eq_ok.mp h
    cases needs with
    | false => exact ih h
    | true =>
      obtain ⟨b, hb, h⟩ := bind_eq_ok.mp h
      obtain ⟨ws', hws', hcons⟩ := bind_eq_ok.mp h
      cases hcons
      exact List.forall_mem_append.mpr ⟨wrapperBlock_clean hb, ih hws'⟩

mutual

theorem Struct.block_clean : ∀ {s : Struct} {b : StructBlock}, Struct.Clean kept s →
    Struct.block elements s = .ok b → ∀ inner ∈ b.withInner, inner.Clean kept
  | ⟨name, comment, type, fields, nested⟩, b, .mk hname hfields hnested, h => by
    obtain ⟨lines, hlines, h⟩ := bind_eq_ok.mp h
    obtain ⟨ws, hws, h⟩ := bind_eq_ok.mp h
    obtain ⟨inner, hinner, h⟩ := bind_eq_ok.mp h
    cases h
    rw [StructBlock.withInner, List.forall_mem_cons, List.forall_mem_append]
    exact ⟨⟨hname, fieldLines_clean hlines hfields⟩, wrapperBlocks_clean hws,
      nestedBlocks_clean hnested hinner⟩

theorem nestedBlocks_clean : ∀ {ss : List Struct} {bs : List StructBlock},
    (∀ s ∈ ss, Struct.Clean kept s) → nestedBlocks elements ss = .ok bs →
      ∀ b ∈ blocksWithInner bs, b.Clean kept
  | [], bs, _, h => by
    cases h
    simp [blocksWithInner]
  | s :: rest, bs, hclean, h => by
    obtain ⟨hs, hrest⟩ := List.forall_mem_cons.mp hclean
    obtain ⟨b, hb, h⟩ := bind_eq_ok.mp h
    obtain ⟨bs', hbs', hcons⟩ := bind_eq_ok.mp h
    cases hcons
    exact List.forall_mem_append.mpr ⟨Struct.block_clean hs hb, nestedBlocks_clean hrest hbs'⟩

end

end Emission

/-! ## Lowering -/

section Lowering

variable {o : Options} (hreserved : o.reserved = reservedWords)

theorem singleField_clean (name : String) (location : Option Decl.Location) {fieldName : String}
    (type : Decl.TypeUse) (hfield : fieldName ∉ reservedWords) :
    Ends (singleField o name location fieldName type) (Struct.Clean [name]) fun _ => True := by
  refine (Ends.any _).bind fun comment _ => Ends.ok (.mk ?_ ?_ fun _ hs => absurd hs (by simp))
  · exact fun _ => List.mem_singleton_self name
  · rintro f hf
    obtain rfl := List.mem_singleton.mp hf
    exact hfield

theorem lowerEnumeration_names (e : Decl.Enumeration) :
    Ends (lowerEnumeration o e)
      (fun e' => e'.name = e.name ∧ e'.members.map (·.name) = e.members.map (·.name))
      fun _ => True := by
  have hmember (m : Decl.EnumMember) :
      Ends (lowerEnumMember m) (fun m' => m'.name = m.name) fun _ => True :=
    (Ends.any _).bind fun _ _ => Ends.ok rfl
  refine (Ends.any _).bind fun comment _ => ?_
  refine (Ends.mapM fun m (_ : m ∈ e.members) => hmember m).bind fun members hmembers => ?_
  exact Ends.ok ⟨rfl, map_eq_map_of_forall₂ hmembers⟩

theorem lowerFunctionPointer_name (p : Decl.FunctionPointer) :
    Ends (lowerFunctionPointer o p) (fun p' => p'.name = p.name) fun _ => True :=
  (Ends.any _).bind fun _ _ => Ends.ok rfl

theorem lowerOpaqueType_name (t : Decl.OpaqueType) :
    Ends (lowerOpaqueType t) (fun s => s.name = t.name) fun _ => True :=
  (Ends.any _).bind fun _ _ => Ends.ok rfl

include hreserved

theorem lowerParameters_clean (taken : List String) (ps : List Decl.Parameter) :
    Ends (lowerParameters o taken ps) (fun ps' => ∀ p ∈ ps', p.name ∉ reservedWords)
      fun _ => True := by
  induction ps generalizing taken with
  | nil => exact Ends.ok fun _ hp => absurd hp (by simp)
  | cons p ps ih =>
    unfold lowerParameters
    refine (Ends.any _).bind fun name _ => (Ends.any _).bind fun comment _ => ?_
    refine (ih _).bind fun rest hrest => Ends.ok (List.forall_mem_cons.mpr ⟨?_, hrest⟩)
    dsimp only
    rw [hreserved]
    exact escapeReserved_not_reserved name

theorem lowerFunction_clean (f : Decl.Function) :
    Ends (lowerFunction o f)
      (fun f' => f'.name ∉ reservedWords ∧ ∀ p ∈ f'.parameters, p.name ∉ reservedWords)
      fun _ => True := by
  have hname : escapeReserved o.reserved f.name ∉ reservedWords := by
    rw [hreserved]
    exact escapeReserved_not_reserved f.name
  unfold lowerFunction
  cases f.callingConvention with
  | other convention => exact Ends.error trivial
  | _ =>
    refine (Ends.any _).bind fun comment _ => ?_
    refine (lowerParameters_clean hreserved [] f.parameters).bind fun ps hps => ?_
    exact Ends.ok ⟨hname, hps⟩

theorem lowerField_clean (f : Decl.Field) :
    Ends (lowerField o f) (fun f' => f'.name ∉ reservedWords) fun _ => True := by
  have hname : escapeReserved o.reserved f.name ∉ reservedWords := by
    rw [hreserved]
    exact escapeReserved_not_reserved f.name
  unfold lowerField
  dsimp only
  split
  · exact (Ends.any _).bind fun _ _ => (Ends.any _).bind fun _ _ => Ends.ok hname
  · exact (Ends.any _).bind fun _ _ => (Ends.any _).bind fun _ _ => Ends.ok hname

end Lowering

-- The names that are kept are those of a record and of all records nested in it, so the lists grow
-- up the tree.
theorem lowerRecord_clean {o : Options} (hreserved : o.reserved = reservedWords) (r : Decl.Record) :
    Ends (lowerRecord o r) (Struct.Clean ((withNested r).map (·.name))) fun _ => True := by
  refine lowerRecord_of_nodes (M := fun r => Struct.Clean ((withNested r).map (·.name))) ?_ r
  rintro r ⟨_, _, _, fields, nested⟩ rfl - hfields hnested
  refine .mk (fun _ => ?_) (fun f hf => ?_) fun n hn => ?_
  · exact List.mem_map_of_mem (self_mem_withNested r)
  · obtain ⟨c, -, hlowered⟩ := exists_of_forall₂ hfields hf
    exact (lowerField_clean hreserved c).result hlowered
  · obtain ⟨c, hc, hclean⟩ := exists_of_forall₂ hnested hn
    exact hclean.mono fun name hname => List.map_subset _ (withNested_of_mem hc) hname

theorem lower_clean {o : Options} (hreserved : o.reserved = reservedWords) {h : Decl.Header}
    {l : Lowered} (hl : lower o h = .ok l) :
    ∀ s ∈ l.bindings.structs, Struct.Clean (keptNames h .struct) s := by
  refine lowered_structs hl (fun r hr => ?_) (fun a ha => ?_) fun p hp => ?_
  · refine (lowerRecord_clean hreserved r).giving fun s hs => hs.mono fun n hn => ?_
    have hmem := List.map_subset (·.name) (withNested_subset hr) hn
    exact List.mem_append_left _ (List.mem_append_left _ hmem)
  · refine (singleField_clean a.name a.location a.underlyingType (by decide)).giving
      fun s hs => hs.mono fun n hn => ?_
    obtain rfl := List.mem_singleton.mp hn
    exact List.mem_append_left _ (List.mem_append_right _ (List.mem_map_of_mem ha))
  · refine (singleField_clean p.name p.location p.pointerType (by decide)).giving
      fun s hs => hs.mono fun n hn => ?_
    obtain rfl := List.mem_singleton.mp hn
    exact List.mem_append_right _ (List.mem_map_of_mem hp)

/-! ## Files -/

/-- Reserved words are declared only where the header keeps them. -/
def NamesKept (h : Decl.Header) (names : List Declared) : Prop :=
  ∀ d ∈ names, d.2 ∈ reservedWords → d.2 ∈ keptNames h d.1

section Kept

variable {h : Decl.Header} {position : Position}

theorem NamesKept.cons {name : String} {names : List Declared}
    (hname : name ∈ reservedWords → name ∈ keptNames h position) (hnames : NamesKept h names) :
    NamesKept h ((position, name) :: names) :=
  List.forall_mem_cons.mpr ⟨hname, hnames⟩

theorem namesKept_map {α : Type} {name : α → String} {xs : List α}
    (hxs : ∀ x ∈ xs, name x ∈ reservedWords → name x ∈ keptNames h position) :
    NamesKept h (xs.map fun x => (position, name x)) :=
  List.forall_mem_map.mpr hxs

/-- Names of which none is reserved are kept wherever they are declared. -/
theorem namesKept_map_of_not_reserved {α : Type} {name : α → String} {xs : List α}
    (hxs : ∀ x ∈ xs, name x ∉ reservedWords) :
    NamesKept h (xs.map fun x => (position, name x)) :=
  namesKept_map fun x hx hword => absurd hword (hxs x hx)

theorem StructBlock.names_kept {b : StructBlock}
    (hb : ∀ inner ∈ b.withInner, inner.Clean (keptNames h .struct)) : NamesKept h b.names := by
  intro d hd
  obtain ⟨inner, hinner, hd⟩ := List.mem_flatMap.mp hd
  exact NamesKept.cons (hb inner hinner).name
    (namesKept_map_of_not_reserved (hb inner hinner).fields) d hd

/-- The only field of the block of a function pointer is called `Pointer`. -/
theorem functionPointerBlock_names {elements : ElementTable} {p : FunctionPointer} {b : StructBlock}
    (hb : functionPointerBlock elements p = .ok b) :
    b.name = p.name ∧ ∀ line ∈ b.fields, line.name ∉ reservedWords := by
  obtain ⟨line, hline, hmk⟩ := bind_eq_ok.mp hb
  cases hmk
  refine ⟨rfl, fun line' hline' => ?_⟩
  obtain rfl := List.mem_singleton.mp hline'
  rw [name_fieldLine hline]
  show "Pointer" ∉ reservedWords
  decide

end Kept

/-- The names that a member declares are kept.  The cases are those of the sections that members come
from. -/
theorem member_names_kept {o : Options} (hreserved : o.reserved = reservedWords) {h : Decl.Header}
    {l : Lowered} (hl : lower o h = .ok l) {elements : ElementTable} {m : Member}
    (hm : m ∈ l.bindings.members) {names : List Declared}
    (hnames : declaredNames elements m = .ok names) : NamesKept h names := by
  have hclean := lower_clean hreserved hl
  obtain ⟨-, rfl⟩ := lower_eq_ok.mp hl
  simp only [Bindings.members, List.mem_append, List.mem_map] at hm
  rcases hm with (((⟨f, hf, rfl⟩ | ⟨p, hp, rfl⟩) | ⟨s, hs, rfl⟩) | ⟨t, ht, rfl⟩) | ⟨e, he, rfl⟩
  · cases hnames
    obtain ⟨f', -, hbound⟩ := mem_boundOf hf
    obtain ⟨hname, hparameters⟩ :=
      (lowerFunction_clean hreserved f').result (outcome_eq_bound hbound)
    exact .cons (fun hword => absurd hword hname) (namesKept_map_of_not_reserved hparameters)
  · obtain ⟨b, hb, hmk⟩ := bind_eq_ok.mp hnames
    cases hmk
    obtain ⟨hname, hfields⟩ := functionPointerBlock_names hb
    obtain ⟨p', hp', hbound⟩ := mem_boundOf hp
    have hkept : p.name = p'.name :=
      (lowerFunctionPointer_name p').result (outcome_eq_bound hbound)
    refine .cons (fun _ => ?_) (namesKept_map_of_not_reserved hfields)
    rw [hname, hkept]
    exact List.mem_map_of_mem hp'
  · obtain ⟨b, hb, hmk⟩ := bind_eq_ok.mp hnames
    cases hmk
    exact StructBlock.names_kept (Struct.block_clean (hclean s hs) hb)
  · cases hnames
    obtain ⟨t', ht', hbound⟩ := mem_boundOf ht
    have hkept : t.name = t'.name := (lowerOpaqueType_name t').result (outcome_eq_bound hbound)
    refine .cons (fun _ => ?_) fun _ hd => absurd hd (by simp)
    rw [hkept]
    exact List.mem_map_of_mem ht'
  · cases hnames
    obtain ⟨e', he', hbound⟩ := mem_boundOf he
    obtain ⟨hkept, hmembers⟩ := (lowerEnumeration_names e').result (outcome_eq_bound hbound)
    refine .cons (fun _ => ?_) (namesKept_map fun m hm _ => ?_)
    · rw [hkept]
      exact List.mem_map_of_mem he'
    · have hname := List.mem_map_of_mem (f := (·.name)) hm
      rw [hmembers] at hname
      exact List.mem_flatMap.mpr ⟨e', he', hname⟩

/-- A member that has a text declares names in it, and the first of them is its own. -/
theorem exists_declaredNames {elements : ElementTable} {m : Member} {t : List Char}
    (ht : memberText elements m = .ok t) :
    ∃ position rest, declaredNames elements m = .ok ((position, m.name) :: rest) := by
  cases m with
  | function f => exact ⟨_, _, rfl⟩
  | functionPointer p =>
    obtain ⟨b, hb, -⟩ := functionPointerText_eq_ok.mp ht
    refine ⟨.functionPointer, b.fields.map fun line => (.field, line.name), ?_⟩
    rw [declaredNames, hb, ok_bind, (functionPointerBlock_names hb).1]
    rfl
  | struct s =>
    obtain ⟨b, hb, -⟩ := Struct.text_eq_ok.mp ht
    obtain ⟨name, comment, type, fields, nested⟩ := s
    rw [declaredNames, hb]
    obtain ⟨lines, -, hb⟩ := bind_eq_ok.mp hb
    obtain ⟨ws, -, hb⟩ := bind_eq_ok.mp hb
    obtain ⟨inner, -, hb⟩ := bind_eq_ok.mp hb
    cases hb
    exact ⟨_, _, rfl⟩
  | opaqueStruct s => exact ⟨_, _, rfl⟩
  | enumeration e => exact ⟨_, _, rfl⟩

theorem memberText_of_emit {p : Profile} {b : Bindings} {e : Emitted} (he : emit p b = .ok e) :
    (∀ m ∈ b.members, ∃ t, memberText p.elements m = .ok t)
      ∧ e.declaredNames = b.members.map Member.name := by
  obtain ⟨texts, htexts, he⟩ := bind_eq_ok.mp he
  obtain ⟨body, -, he⟩ := bind_eq_ok.mp he
  obtain ⟨file, -, he⟩ := bind_eq_ok.mp he
  cases he
  rw [memberTexts_eq] at htexts
  exact ⟨exists_mapM_eq_ok.mp ⟨texts, htexts⟩, b.names_eq⟩

/-- **Where reserved words are declared.**  A name that a generated file declares is a reserved word
only if it is the name of a struct, a function pointer, an opaque type, an enumeration or one of its
members and the header has a declaration of that sort with this name.  The names of functions, of
parameters and of fields never are, nor are those that are made up.  So where the header keeps no
reserved word, the file declares none. -/
theorem reserved_names_kept {o : Options} (hreserved : o.reserved = reservedWords)
    {h : Decl.Header} {l : Lowered} (hl : lower o h = .ok l) {p : Profile} {e : Emitted}
    (he : emit p l.bindings = .ok e) :
    (∀ m ∈ l.bindings.members, ∃ names, declaredNames p.elements m = .ok names ∧ NamesKept h names)
      ∧ (∀ name ∈ e.declaredNames, name ∈ reservedWords → ∃ position, name ∈ keptNames h position)
      ∧ ((∀ position, ∀ name ∈ keptNames h position, name ∉ reservedWords) →
        ∀ m ∈ l.bindings.members, ∃ names, declaredNames p.elements m = .ok names
          ∧ ∀ d ∈ names, d.2 ∉ reservedWords) := by
  obtain ⟨htexts, hdeclared⟩ := memberText_of_emit he
  have hnames : ∀ m ∈ l.bindings.members, ∃ position rest,
      declaredNames p.elements m = .ok ((position, m.name) :: rest)
        ∧ NamesKept h ((position, m.name) :: rest) := by
    intro m hm
    obtain ⟨t, ht⟩ := htexts m hm
    obtain ⟨position, rest, hnames⟩ := exists_declaredNames ht
    exact ⟨position, rest, hnames, member_names_kept hreserved hl hm hnames⟩
  refine ⟨fun m hm => ?_, fun name hname hword => ?_, fun hheader m hm => ?_⟩
  · obtain ⟨position, rest, hok, hkept⟩ := hnames m hm
    exact ⟨_, hok, hkept⟩
  · rw [hdeclared] at hname
    obtain ⟨m, hm, rfl⟩ := List.mem_map.mp hname
    obtain ⟨position, rest, -, hkept⟩ := hnames m hm
    exact ⟨position, hkept _ List.mem_cons_self hword⟩
  · obtain ⟨position, rest, hok, hkept⟩ := hnames m hm
    exact ⟨_, hok, fun d hd hword => hheader d.1 d.2 (hkept d hd hword) hword⟩

/-- A function, a record with another one nested in it, and an opaque type, all of whose names are
reserved. -/
def keywordHeader : Decl.Header where
  functions := [⟨"lock", none, .c, sizedType "void" (.int 0),
    [⟨"in", none, sizedType "int" (.int 4), false⟩]⟩]
  functionPointers := []
  records := [singleRecord "event" (.int 4) (.int 4) (.int 0)
    [{ singleRecord "params" (.int 4) (.int 4) (.int 0) [] with
      fields := [⟨"string", none, sizedType "int" (.int 4), .int 0, .int 0⟩] }]]
  opaquePointers := []
  opaqueTypes := [⟨"object", none⟩]
  aliases := []
  enumerations := []

def keywordProfile : Profile where
  libraryName := .text "words"
  className := .text "words"
  namespaceName := .null
  usings := []
  elements := primitiveElements

theorem reserved_names_kept_object :
    ∃ l e, lower Options.default keywordHeader = .ok l ∧ emit keywordProfile l.bindings = .ok e
      ∧ e.declaredNames = ["@lock", "event", "object"]
      ∧ l.bindings.members.map (fun m => (declaredNames primitiveElements m).toOption) =
        [some [(.function, "@lock"), (.parameter, "@in")],
         some [(.struct, "event"), (.field, "data"), (.struct, "params"), (.field, "@string")],
         some [(.opaqueType, "object")]]
      ∧ ∀ m ∈ l.bindings.members, ∃ names, declaredNames primitiveElements m = .ok names
        ∧ NamesKept keywordHeader names := by
  have hrun : (lower Options.default keywordHeader).toOption.map (fun l =>
      ((emit keywordProfile l.bindings).toOption.map (·.declaredNames),
        l.bindings.members.map fun m => (declaredNames primitiveElements m).toOption))
      = some (some ["@lock", "event", "object"],
        [some [(.function, "@lock"), (.parameter, "@in")],
         some [(.struct, "event"), (.field, "data"), (.struct, "params"), (.field, "@string")],
         some [(.opaqueType, "object")]]) := by
    decide +kernel
  obtain ⟨l, hl, hboth⟩ := Option.map_eq_some_iff.mp hrun
  obtain ⟨hemit, hmembers⟩ := Prod.mk.inj hboth
  obtain ⟨e, he, hdeclared⟩ := Option.map_eq_some_iff.mp hemit
  rw [toOption_eq_some] at hl he
  exact ⟨l, e, hl, he, hdeclared, hmembers, (reserved_names_kept rfl hl he).1⟩

end Interop.Source
