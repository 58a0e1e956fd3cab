import Interop.Proofs.Binding.Lowering

/-!
# Records and the structs for them

A record is a tree: its nested records are its children.  Lowering goes through it node by node
(`lowerRecord_eq`), and the struct that it gives is a tree of the same shape, with the layout of
each node as the record has it (`Mirrors`).  A struct therefore tells the names and the layout of
the record that it was made from (`layout_preserved`).
-/

set_option autoImplicit false

namespace Interop

/-! ## Records as trees -/

/-- What holds of a record if it holds of those nested in it holds of all records. -/
@[elab_as_elim]
theorem Decl.Record.tree_induction {motive : Decl.Record → Prop}
    (node : ∀ r, (∀ n ∈ r.nested, motive n) → motive r) (r : Decl.Record) : motive r := by
  cases r with
  | mk name location type fields nested => exact node _ fun n _ => tree_induction node n

namespace Binding

theorem allNested_eq (rs : List Decl.Record) : allNested rs = rs.flatMap withNested := by
  induction rs with
  | nil => rfl
  | cons r rs ih => rw [allNested, ih, List.flatMap_cons]

/-- A record stands before the records of the trees nested in it. -/
theorem withNested_eq (r : Decl.Record) : withNested r = r :: r.nested.flatMap withNested := by
  cases r
  rw [withNested, allNested_eq]

theorem lowerNested_eq (o : Options) (rs : List Decl.Record) :
    lowerNested o rs = rs.mapM (lowerRecord o) := by
  induction rs with
  | nil => rfl
  | cons r rs ih => rw [lowerNested, ih, List.mapM_cons]

/-- The check of a layout, if layouts are checked. -/
def checkIfAsked (o : Options) (r : Decl.Record) : Except LoweringError Unit :=
  if o.validateLayout then checkLayout r else .ok ()

/-- A record is checked before its fields are lowered, and these before the nested records. -/
theorem lowerRecord_eq (o : Options) (r : Decl.Record) :
    lowerRecord o r = (do
      let _ ← checkIfAsked o r
      let comment ← numeric (Decl.locationComment r.location)
      let fields ← r.fields.mapM (lowerField o)
      let nested ← r.nested.mapM (lowerRecord o)
      return { name := r.name, comment, type := .ofDecl o.booleanTypeName r.type, fields, nested }) := by
  cases r
  rw [lowerRecord, lowerNested_eq, checkIfAsked]
  split <;> rfl

/-- What holds of a record and its struct, if it holds of the records nested in it and theirs, holds
of all records and the structs that they are lowered to. -/
theorem lowerRecord_of_nodes {o : Options} {M : Decl.Record → Struct → Prop}
    (node : ∀ r s, s.name = r.name → s.type = .ofDecl o.booleanTypeName r.type →
      List.Forall₂ (fun c f => lowerField o c = .ok f) r.fields s.fields →
      List.Forall₂ M r.nested s.nested → M r s) (r : Decl.Record) :
    Ends (lowerRecord o r) (M r) fun _ => True := by
  induction r using Decl.Record.tree_induction with
  | node r ih =>
    rw [lowerRecord_eq]
    refine (Ends.any _).bind fun _ _ => (Ends.any _).bind fun comment _ => ?_
    refine (Ends.mapM fun c _ => (Ends.any _).also fun f hf => hf).bind fun fields hfields => ?_
    refine (Ends.mapM ih).bind fun nested hnested => Ends.ok ?_
    exact node r _ rfl rfl (hfields.imp fun _ _ h => h.1) hnested

/-- The records nested in a record stand in its tree with all that is nested in them. -/
theorem withNested_of_mem {r n : Decl.Record} (hn : n ∈ r.nested) :
    ∀ r' ∈ withNested n, r' ∈ withNested r := by
  intro r' hr'
  rw [withNested_eq r]
  exact List.mem_cons_of_mem r (List.mem_flatMap.mpr ⟨n, hn, hr'⟩)

theorem self_mem_withNested (r : Decl.Record) : r ∈ withNested r := by
  rw [withNested_eq]
  exact List.mem_cons_self

/-! ## What a struct has from its record -/

/-- The type is one of the boolean types of the system headers. -/
def IsSystemBoolean (t : Decl.TypeUse) : Prop :=
  t.isSystem = true ∧ (t.name = "bool" ∨ t.name = "_Bool")

/-- The type of a binding has everything from the type in the header, but the name if that is a
boolean type. -/
structure TypeKept (o : Options) (c : Decl.TypeUse) (t : TypeUse) : Prop where
  boolean : IsSystemBoolean c → t.name = o.booleanTypeName
  name : ¬ IsSystemBoolean c → t.name = .text c.name
  nativeName : t.nativeName = c.nativeName
  sizeOf : t.sizeOf = c.sizeOf
  alignOf : t.alignOf = c.alignOf
  count : t.count = c.arraySize

structure FieldKept (o : Options) (c : Decl.Field) (f : Field) : Prop where
  name : f.name = escapeReserved o.reserved c.name
  nativeName : f.nativeName = c.name
  type : TypeKept o c.type f.type
  offset : f.offset = c.offset
  padding : f.padding = c.padding

/-- A struct is that of a record, at every depth. -/
inductive Mirrors (o : Options) : Decl.Record → Struct → Prop
  | node {r : Decl.Record} {s : Struct} (name : s.name = r.name) (type : TypeKept o r.type s.type)
      (fields : List.Forall₂ (FieldKept o) r.fields s.fields)
      (nested : List.Forall₂ (Mirrors o) r.nested s.nested) : Mirrors o r s

variable {o o' : Options}

theorem ofDecl_kept (o : Options) (c : Decl.TypeUse) :
    TypeKept o c (.ofDecl o.booleanTypeName c) := by
  have hboolean : (c.isSystem && booleanTypeNames.contains c.name) = true ↔ IsSystemBoolean c := by
    simp [IsSystemBoolean, booleanTypeNames]
  refine ⟨fun h => ?_, fun h => ?_, rfl, rfl, rfl, rfl⟩
  · rw [TypeUse.ofDecl, if_pos (hboolean.mpr h)]
  · rw [TypeUse.ofDecl, if_neg (mt hboolean.mp h)]

theorem lowerField_kept (c : Decl.Field) :
    Ends (lowerField o c) (FieldKept o c) fun _ => True := by
  unfold lowerField
  dsimp only
  split
  · refine (Ends.any _).bind fun _ _ => (Ends.any _).bind fun _ _ => Ends.ok ?_
    exact ⟨rfl, rfl, ofDecl_kept o c.type, rfl, rfl⟩
  · refine (Ends.any _).bind fun _ _ => (Ends.any _).bind fun _ _ => Ends.ok ?_
    exact ⟨rfl, rfl, ofDecl_kept o c.type, rfl, rfl⟩

theorem lowerRecord_mirrors (r : Decl.Record) :
    Ends (lowerRecord o r) (Mirrors o r) fun _ => True := by
  refine lowerRecord_of_nodes (fun r s hname htype hfields hnested => ?_) r
  refine .node hname (htype ▸ ofDecl_kept o r.type) ?_ hnested
  exact hfields.imp fun c f hf => (lowerField_kept c).result hf

/-! ## Records with the same struct -/

/-- Two types have the same name in the header, the same size, alignment and count. -/
structure SameType (c c' : Decl.TypeUse) : Prop where
  nativeName : c.nativeName = c'.nativeName
  sizeOf : c.sizeOf = c'.sizeOf
  alignOf : c.alignOf = c'.alignOf
  arraySize : c.arraySize = c'.arraySize

structure SameField (c c' : Decl.Field) : Prop where
  name : c.name = c'.name
  type : SameType c.type c'.type
  offset : c.offset = c'.offset
  padding : c.padding = c'.padding

/-- Two records have the same names and the same layout, at every depth. -/
inductive SameLayout : Decl.Record → Decl.Record → Prop
  | node {r r' : Decl.Record} (name : r.name = r'.name) (type : SameType r.type r'.type)
      (fields : List.Forall₂ SameField r.fields r'.fields)
      (nested : List.Forall₂ SameLayout r.nested r'.nested) : SameLayout r r'

theorem TypeKept.same {c c' : Decl.TypeUse} {t : TypeUse} (h : TypeKept o c t)
    (h' : TypeKept o' c' t) : SameType c c' where
  nativeName := h.nativeName.symm.trans h'.nativeName
  sizeOf := h.sizeOf.symm.trans h'.sizeOf
  alignOf := h.alignOf.symm.trans h'.alignOf
  arraySize := h.count.symm.trans h'.count

theorem FieldKept.same {c c' : Decl.Field} {f : Field} (h : FieldKept o c f)
    (h' : FieldKept o' c' f) : SameField c c' where
  name := h.nativeName.symm.trans h'.nativeName
  type := h.type.same h'.type
  offset := h.offset.symm.trans h'.offset
  padding := h.padding.symm.trans h'.padding

/-- Whatever corresponds to the same list one by one corresponds to each other. -/
theorem forall₂_of_common {α β γ : Type} {R : α → γ → Prop} {S : β → γ → Prop} {T : α → β → Prop}
    {xs : List α} {ys : List β} {zs : List γ} (hR : List.Forall₂ R xs zs)
    (hS : List.Forall₂ S ys zs) (h : ∀ x ∈ xs, ∀ y z, R x z → S y z → T x y) :
    List.Forall₂ T xs ys := by
  induction hR generalizing ys with
  | nil =>
    cases hS
    exact .nil
  | cons hx _ ih =>
    cases hS with
    | cons hy hS =>
      obtain ⟨hhead, htail⟩ := List.forall_mem_cons.mp h
      exact .cons (hhead _ _ hx hy) (ih hS htail)

theorem Mirrors.same {r r' : Decl.Record} {s : Struct} (h : Mirrors o r s)
    (h' : Mirrors o' r' s) : SameLayout r r' := by
  -- One induction is enough: the second record is taken apart along the same struct.
  induction r using Decl.Record.tree_induction generalizing r' s with
  | node r ih =>
    obtain ⟨hname, htype, hfields, hnested⟩ := h
    obtain ⟨hname', htype', hfields', hnested'⟩ := h'
    refine .node (hname.symm.trans hname') (htype.same htype') ?_ ?_
    · exact forall₂_of_common hfields hfields' fun _ _ _ _ hx hy => hx.same hy
    · exact forall₂_of_common hnested hnested' fun n hn _ _ hx hy => ih n hn hx hy

/-- **Layouts are kept at every depth.**  The struct for a record is a tree of the same shape, with
the names and the layout numbers of the record at every node; only names that are reserved and those
of boolean types change.  So records with the same struct have the same names and layout. -/
theorem layout_preserved {o : Options} {r : Decl.Record} {s : Struct}
    (h : lowerRecord o r = .ok s) :
    Mirrors o r s ∧ ∀ o' r', lowerRecord o' r' = .ok s → SameLayout r r' := by
  have hmirrors := (lowerRecord_mirrors r).result h
  exact ⟨hmirrors, fun _ r' h' => hmirrors.same ((lowerRecord_mirrors r').result h')⟩

/-- A record with an array and a nested record, which has a field with a reserved name and a boolean
type. -/
def switchRecord (boolean : String) : Decl.Record where
  name := "Panel"
  location := none
  type := sizedType "Panel" (.int 12)
  fields := [⟨"levels", none, { sizedType "int" (.int 8) with arraySize := some (.int 2) }, .int 0,
    .int 0⟩]
  nested := [{
    name := "Switch"
    location := none
    type := sizedType "Switch" (.int 4)
    fields := [⟨"lock", none,
      { sizedType "flag" (.int 1) with name := boolean, isSystem := true }, .int 0, .int 3⟩]
    nested := [] }]

/-- The two boolean types of the system headers have one stand-in. -/
theorem layout_preserved_switch :
    ∃ s, lowerRecord Options.default (switchRecord "bool") = .ok s
      ∧ s.nested.flatMap (·.fields.map (·.name)) = ["@lock"]
      ∧ Mirrors Options.default (switchRecord "bool") s
      ∧ lowerRecord Options.default (switchRecord "_Bool") = .ok s
      ∧ SameLayout (switchRecord "bool") (switchRecord "_Bool") := by
  have hnames : (lowerRecord Options.default (switchRecord "bool")).toOption.map
      (·.nested.flatMap (·.fields.map (·.name))) = some ["@lock"] := by
    decide +kernel
  have hsame : lowerRecord Options.default (switchRecord "_Bool")
      = lowerRecord Options.default (switchRecord "bool") := by
    rfl
  obtain ⟨s, hs, hfields⟩ := Option.map_eq_some_iff.mp hnames
  rw [toOption_eq_some] at hs
  obtain ⟨hmirrors, hothers⟩ := layout_preserved hs
  exact ⟨s, hs, hfields, hmirrors, hsame.trans hs, hothers _ _ (hsame.trans hs)⟩

end Binding

end Interop
