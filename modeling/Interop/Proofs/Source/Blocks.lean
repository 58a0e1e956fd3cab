import Interop.Proofs.Binding.Types
import Interop.Proofs.Source.Standing

/-!
# Blocks and their wrappers

The text of a struct is that of a block: the fields with what each declares, the wrappers, and the
blocks of the structs nested in it.  In every block of a lowered header the types that stand for
arrays are declared in the block itself, each once and in the order of their use
(`wrappers_declared`).  The struct around a function pointer is the exception: it has a block with no
wrappers, whatever its field declares.
-/

set_option autoImplicit false

namespace Interop.Source

open Binding Text

/-! ## Blocks -/

/-- What a field declares its storage as. -/
inductive Storage
  | plain (type : Value)
  | inPlace (keyword : String) (count : Number)
  | wrapper (name : String)

/-- A field of a block. -/
structure FieldLine where
  name : String
  storage : Storage
  offset : Number
  size : Number
  padding : Number

structure StructBlock where
  name : String
  comment : String
  type : TypeUse
  fields : List FieldLine
  wrappers : List StructBlock
  nested : List StructBlock

def Storage.wrapper? : Storage → Option String
  | wrapper name => some name
  | _ => none

/-- The names of the wrappers that the fields of the block are declared with. -/
def StructBlock.used (b : StructBlock) : List String := b.fields.filterMap (·.storage.wrapper?)

/-- The names of the wrappers that stand in the block. -/
def StructBlock.declared (b : StructBlock) : List String := b.wrappers.map (·.name)

mutual

/-- The block with all blocks inside it, at any depth. -/
def StructBlock.withInner : StructBlock → List StructBlock
  | ⟨name, comment, type, fields, wrappers, nested⟩ =>
    ⟨name, comment, type, fields, wrappers, nested⟩
      :: (blocksWithInner wrappers ++ blocksWithInner nested)

def blocksWithInner : List StructBlock → List StructBlock
  | [] => []
  | b :: rest => StructBlock.withInner b ++ blocksWithInner rest

end

/-! ## Texts of blocks -/

/-- What a field of this name and storage declares. -/
def Storage.declaration (name : String) : Storage → Except EmissionError (List Char)
  | plain type => faulty (Source.declaration type name)
  | inPlace keyword n => do
    return "fixed ".toList ++ keyword.toList ++ ' ' :: name.toList
      ++ '[' :: (← numberText n) ++ [']']
  | wrapper wrapperName => faulty (Source.declaration (.text wrapperName) name)

def FieldLine.text (f : FieldLine) : Except EmissionError (List Char) := do
  let declared ← f.storage.declaration f.name
  let placement ← faulty ((offsetAttribute f.offset f.size f.padding).mapError .number)
  return placement ++ "\npublic ".toList ++ declared ++ [';']

mutual

def StructBlock.text : StructBlock → Except EmissionError (List Char)
  | ⟨name, comment, type, fields, wrappers, nested⟩ => do
    let fieldTexts ← fields.mapM FieldLine.text
    let wrapperTexts ← blockTexts wrappers
    let inner ← blockTexts nested
    structText name comment type (fieldTexts ++ wrapperTexts ++ inner)

def blockTexts : List StructBlock → Except EmissionError (List (List Char))
  | [] => .ok []
  | b :: rest => do return (← StructBlock.text b) :: (← blockTexts rest)

end

/-! ## Blocks of bindings -/

def Storage.ofField (elements : ElementTable) (f : Field) : Except EmissionError Storage := do
  if ← faulty (needsWrapper elements f) then return wrapper (wrapperName f)
  else match f.type.count with
    | some n => do
      let keyword ← faulty (elementKeyword elements f.type.name)
      return inPlace (keyword.getD "None") n
    | none => return plain f.type.name

/-- What a field comes to in a block. -/
def fieldLine (elements : ElementTable) (f : Field) : Except EmissionError FieldLine := do
  return {
    name := f.name
    storage := ← Storage.ofField elements f
    offset := f.offset
    size := f.type.sizeOf
    padding := f.padding }

def wrapperBlock (elements : ElementTable) (f : Field) : Except EmissionError StructBlock := do
  let (count, size) ← faulty (elementLayout f.type)
  let fields ← (List.range count).mapM fun index => do
    fieldLine elements (← faulty (slot f.type size index))
  return ⟨wrapperName f, "", f.type, fields, [], []⟩

def wrapperBlocks (elements : ElementTable) : List Field → Except EmissionError (List StructBlock)
  | [] => .ok []
  | f :: rest => do
    if ← faulty (needsWrapper elements f) then
      return (← wrapperBlock elements f) :: (← wrapperBlocks elements rest)
    else wrapperBlocks elements rest

mutual

def Struct.block (elements : ElementTable) : Struct → Except EmissionError StructBlock
  | ⟨name, comment, type, fields, nested⟩ => do
    let lines ← fields.mapM (fieldLine elements)
    let wrappers ← wrapperBlocks elements fields
    let inner ← nestedBlocks elements nested
    return ⟨name, comment, type, lines, wrappers, inner⟩

def nestedBlocks (elements : ElementTable) : List Struct → Except EmissionError (List StructBlock)
  | [] => .ok []
  | s :: rest => do return (← Struct.block elements s) :: (← nestedBlocks elements rest)

end

def functionPointerBlock (elements : ElementTable) (p : FunctionPointer) :
    Except EmissionError StructBlock := do
  return ⟨p.name, p.comment, p.type, [← fieldLine elements (pointerField p.type)], [], []⟩

theorem nestedBlocks_eq (elements : ElementTable) (ss : List Struct) :
    nestedBlocks elements ss = ss.mapM (Struct.block elements) := by
  induction ss with
  | nil => rfl
  | cons s ss ih => rw [nestedBlocks, ih, List.mapM_cons]

theorem blockTexts_eq (bs : List StructBlock) : blockTexts bs = bs.mapM StructBlock.text := by
  induction bs with
  | nil => rfl
  | cons b bs ih => rw [blockTexts, ih, List.mapM_cons]

/-! ## The texts are those of the blocks -/

section Texts

variable {elements : ElementTable}

theorem fieldDeclaration_eq (f : Field) :
    fieldDeclaration elements f = Storage.ofField elements f >>= Storage.declaration f.name := by
  unfold fieldDeclaration Storage.ofField
  cases faulty (needsWrapper elements f) with
  | error e => rfl
  | ok needs =>
    cases needs with
    | true => rfl
    | false =>
      cases f.type.count with
      | none => rfl
      | some n => cases faulty (elementKeyword elements f.type.name) <;> rfl

theorem fieldText_eq (f : Field) :
    fieldText elements f = fieldLine elements f >>= FieldLine.text := by
  unfold fieldText fieldLine
  rw [fieldDeclaration_eq]
  cases Storage.ofField elements f <;> rfl

theorem fieldTexts_eq_ok {fields : List Field} {texts : List (List Char)} :
    fields.mapM (fieldText elements) = .ok texts ↔
      ∃ lines, fields.mapM (fieldLine elements) = .ok lines
        ∧ lines.mapM FieldLine.text = .ok texts := by
  rw [show fieldText elements = fun f => fieldLine elements f >>= FieldLine.text from
    funext fieldText_eq]
  exact mapM_bind_eq_ok

theorem wrapperText_eq_ok {f : Field} {t : List Char} :
    wrapperText elements f = .ok t ↔ ∃ b, wrapperBlock elements f = .ok b ∧ b.text = .ok t := by
  have hslots (size : Number) (count : Nat) (texts : List (List Char)) :
      ((List.range count).mapM fun index => do
        fieldText elements (← faulty (slot f.type size index))) = .ok texts ↔
      ∃ lines, ((List.range count).mapM fun index => do
        fieldLine elements (← faulty (slot f.type size index))) = .ok lines
          ∧ lines.mapM FieldLine.text = .ok texts := by
    rw [← mapM_bind_eq_ok]
    simp only [fieldText_eq, bind_assoc]
  unfold wrapperText wrapperBlock
  simp only [bind_eq_ok, hslots, pure_eq_ok, Except.ok.injEq]
  constructor
  · rintro ⟨layout, hlayout, texts, ⟨lines, hlines, htexts⟩, ht⟩
    refine ⟨_, ⟨layout, hlayout, lines, hlines, rfl⟩, ?_⟩
    simp only [StructBlock.text, htexts, blockTexts, ok_bind, List.append_nil, ht]
  · rintro ⟨-, ⟨layout, hlayout, lines, hlines, rfl⟩, ht⟩
    simp only [StructBlock.text, blockTexts, bind_eq_ok, ok_bind, List.append_nil] at ht
    obtain ⟨texts, htexts, ht⟩ := ht
    exact ⟨layout, hlayout, texts, ⟨lines, hlines, htexts⟩, ht⟩

theorem wrapperTexts_eq_ok {fields : List Field} {texts : List (List Char)} :
    wrapperTexts elements fields = .ok texts ↔
      ∃ bs, wrapperBlocks elements fields = .ok bs ∧ blockTexts bs = .ok texts := by
  induction fields generalizing texts with
  | nil => simp [wrapperTexts, wrapperBlocks, blockTexts]
  | cons f rest ih =>
    unfold wrapperTexts wrapperBlocks
    cases faulty (needsWrapper elements f) with
    | error e => simp
    | ok needs =>
      cases needs with
      | false => simpa using ih
      | true =>
        simp only [ok_bind, if_true, bind_eq_ok, wrapperText_eq_ok, ih, pure_eq_ok, Except.ok.injEq]
        constructor
        · rintro ⟨t, ⟨b, hb, ht⟩, ts, ⟨bs, hbs, hts⟩, rfl⟩
          refine ⟨b :: bs, ⟨b, hb, bs, hbs, rfl⟩, ?_⟩
          simp only [blockTexts, ht, hts, ok_bind, pure_eq_ok]
        · rintro ⟨-, ⟨b, hb, bs, hbs, rfl⟩, hts⟩
          simp only [blockTexts, bind_eq_ok, pure_eq_ok, Except.ok.injEq] at hts
          obtain ⟨t, ht, ts, hts, rfl⟩ := hts
          exact ⟨t, ⟨b, hb, ht⟩, ts, ⟨bs, hbs, hts⟩, rfl⟩

mutual

/-- A struct has the text of its block. -/
theorem Struct.text_eq_ok : ∀ {s : Struct} {t : List Char},
    Struct.text elements s = .ok t ↔ ∃ b, Struct.block elements s = .ok b ∧ b.text = .ok t
  | ⟨name, comment, type, fields, nested⟩, t => by
    unfold Struct.text Struct.block
    simp only [bind_eq_ok, fieldTexts_eq_ok, wrapperTexts_eq_ok, nestedTexts_eq_ok, pure_eq_ok,
      Except.ok.injEq]
    constructor
    · rintro ⟨fs, ⟨lines, hlines, hfs⟩, ws, ⟨bs, hbs, hws⟩, ns, ⟨inner, hinner, hns⟩, ht⟩
      refine ⟨_, ⟨lines, hlines, bs, hbs, inner, hinner, rfl⟩, ?_⟩
      simp only [StructBlock.text, hfs, hws, hns, ok_bind, ht]
    · rintro ⟨-, ⟨lines, hlines, bs, hbs, inner, hinner, rfl⟩, ht⟩
      simp only [StructBlock.text, bind_eq_ok] at ht
      obtain ⟨fs, hfs, ws, hws, ns, hns, ht⟩ := ht
      exact ⟨fs, ⟨lines, hlines, hfs⟩, ws, ⟨bs, hbs, hws⟩, ns, ⟨inner, hinner, hns⟩, ht⟩

theorem nestedTexts_eq_ok : ∀ {ss : List Struct} {texts : List (List Char)},
    nestedTexts elements ss = .ok texts ↔
      ∃ bs, nestedBlocks elements ss = .ok bs ∧ blockTexts bs = .ok texts
  | [], texts => by simp [nestedTexts, nestedBlocks, blockTexts]
  | s :: rest, texts => by
    unfold nestedTexts nestedBlocks
    simp only [bind_eq_ok, Struct.text_eq_ok, nestedTexts_eq_ok, pure_eq_ok, Except.ok.injEq]
    constructor
    · rintro ⟨t, ⟨b, hb, ht⟩, ts, ⟨bs, hbs, hts⟩, rfl⟩
      refine ⟨b :: bs, ⟨b, hb, bs, hbs, rfl⟩, ?_⟩
      simp only [blockTexts, ht, hts, ok_bind, pure_eq_ok]
    · rintro ⟨-, ⟨b, hb, bs, hbs, rfl⟩, hts⟩
      simp only [blockTexts, bind_eq_ok, pure_eq_ok, Except.ok.injEq] at hts
      obtain ⟨t, ht, ts, hts, rfl⟩ := hts
      exact ⟨t, ⟨b, hb, ht⟩, ts, ⟨bs, hbs, hts⟩, rfl⟩

end

theorem functionPointerText_eq_ok {p : FunctionPointer} {t : List Char} :
    functionPointerText elements p = .ok t ↔
      ∃ b, functionPointerBlock elements p = .ok b ∧ b.text = .ok t := by
  unfold functionPointerText functionPointerBlock
  simp only [bind_eq_ok, fieldText_eq, pure_eq_ok, Except.ok.injEq]
  constructor
  · rintro ⟨text, ⟨line, hline, htext⟩, ht⟩
    refine ⟨_, ⟨line, hline, rfl⟩, ?_⟩
    simp only [StructBlock.text, List.mapM_cons, List.mapM_nil, htext, blockTexts, ok_bind,
      pure_eq_ok, List.append_nil, ht]
  · rintro ⟨-, ⟨line, hline, rfl⟩, ht⟩
    simp only [StructBlock.text, List.mapM_cons, List.mapM_nil, blockTexts, bind_eq_ok, pure_eq_ok,
      Except.ok.injEq, ok_bind, List.append_nil] at ht
    obtain ⟨-, ⟨text, htext, -, rfl, rfl⟩, ht⟩ := ht
    exact ⟨text, ⟨line, hline, htext⟩, ht⟩

end Texts

/-! ## Spelling -/

theorem dropBlanksBeforeStars_eq {t : List Char} (h : '*' ∉ t) : dropBlanksBeforeStars t = t := by
  induction t with
  | nil => rfl
  | cons c t ih =>
    have ht : '*' ∉ t := List.not_mem_of_not_mem_cons h
    have hhead : t.head? ≠ some '*' := fun hhead => ht (List.mem_of_mem_head? hhead)
    rw [dropBlanksBeforeStars, ih ht]
    exact if_neg fun hstar => hhead hstar.2

theorem spaceAfterStars_eq {t : List Char} (h : '*' ∉ t) : spaceAfterStars t = t := by
  induction t with
  | nil => rfl
  | cons c t ih =>
    obtain ⟨hc, ht⟩ := not_or.mp (List.mem_cons.not.mp h)
    rw [spaceAfterStars, ih ht]
    exact if_neg (Ne.symm hc)

/-- A wrapper without a star in its name is spelled the same where it is used and where it is
declared. -/
theorem declaration_wrapperName {f : Field} (h : '*' ∉ (wrapperName f).toList) (name : String) :
    declaration (.text (wrapperName f)) name
      = .ok ((wrapperName f).toList ++ ' ' :: name.toList) := by
  obtain ⟨base, hfirst⟩ : ∃ base, (wrapperName f).toList =
      '_' :: (base ++ "_FixedBuffe".toList ++ ['r']) := by
    unfold wrapperName
    rw [String.toList_ofList]
    split <;> exact ⟨_, by rw [List.append_assoc]; rfl⟩
  have hlast : (wrapperName f).toList = ('_' :: (base ++ "_FixedBuffe".toList)) ++ ['r'] := hfirst
  have htrim : trim (wrapperName f).toList = (wrapperName f).toList :=
    trimBy_eq_self hfirst hlast (by decide) (by decide)
  have hspelled : normalizePointers (wrapperName f).toList = (wrapperName f).toList := by
    rw [normalizePointers, htrim, dropBlanksBeforeStars_eq h, spaceAfterStars_eq h]
  show Except.ok (normalizePointers (wrapperName f).toList ++ ' ' :: name.toList) = _
  rw [hspelled]

/-! ## Wrappers -/

/-- A wrapper that the field is declared with is spelled as it is called, without a star in it. -/
def FieldLine.Spelled (line : FieldLine) : Prop :=
  ∀ w, line.storage = .wrapper w → '*' ∉ w.toList →
    line.storage.declaration line.name = .ok (w.toList ++ ' ' :: line.name.toList)

/-- The wrappers that the fields are declared with stand in the block itself, in the order of their
use, and no two fields share one. -/
structure StructBlock.Wraps (b : StructBlock) : Prop where
  nodup : b.used.Nodup
  used_eq : b.used = b.declared
  spelled : ∀ line ∈ b.fields, line.Spelled

section Wrappers

variable {elements : ElementTable}

theorem wrapper?_fieldLine {f : Field} {line : FieldLine} (h : fieldLine elements f = .ok line) :
    ∃ needs, needsWrapper elements f = .ok needs
      ∧ line.storage.wrapper? = if needs then some (wrapperName f) else none := by
  unfold fieldLine at h
  obtain ⟨storage, hstorage, hline⟩ := bind_eq_ok.mp h
  cases hline
  unfold Storage.ofField at hstorage
  obtain ⟨needs, hneeds, hstorage⟩ := bind_eq_ok.mp hstorage
  refine ⟨needs, mapError_eq_ok.mp hneeds, ?_⟩
  cases needs with
  | true =>
    cases hstorage
    rfl
  | false =>
    rw [if_neg (by simp)] at hstorage
    cases hcount : f.type.count with
    | none =>
      rw [hcount] at hstorage
      cases hstorage
      rfl
    | some n =>
      rw [hcount] at hstorage
      obtain ⟨keyword, -, hstorage⟩ := bind_eq_ok.mp hstorage
      cases hstorage
      rfl

theorem fieldLine_spelled {f : Field} {line : FieldLine} (h : fieldLine elements f = .ok line) :
    line.Spelled := by
  obtain ⟨needs, -, hwrapper⟩ := wrapper?_fieldLine h
  intro w hw hstar
  rw [hw] at hwrapper ⊢
  cases needs with
  | true =>
    obtain rfl : w = wrapperName f := Option.some.inj hwrapper
    show faulty (declaration (.text (wrapperName f)) line.name) = _
    rw [declaration_wrapperName hstar]
    rfl
  | false => cases hwrapper

theorem name_wrapperBlock {f : Field} {b : StructBlock} (h : wrapperBlock elements f = .ok b) :
    b.name = wrapperName f := by
  obtain ⟨layout, -, h⟩ := bind_eq_ok.mp h
  obtain ⟨lines, -, h⟩ := bind_eq_ok.mp h
  cases h
  rfl

/-- The two passes over the fields of a block agree: the one that declares the fields uses just the
wrappers that the other one makes. -/
theorem used_eq_declared {fields : List Field} {lines : List FieldLine} {ws : List StructBlock}
    (hlines : fields.mapM (fieldLine elements) = .ok lines)
    (hws : wrapperBlocks elements fields = .ok ws) :
    lines.filterMap (·.storage.wrapper?) = ws.map (·.name) := by
  induction fields generalizing lines ws with
  | nil =>
    cases hlines
    cases hws
    rfl
  | cons f rest ih =>
    rw [List.mapM_cons] at hlines
    obtain ⟨line, hline, hlines⟩ := bind_eq_ok.mp hlines
    obtain ⟨lines', hlines', hcons⟩ := bind_eq_ok.mp hlines
    cases hcons
    obtain ⟨needs, hneeds, hwrapper⟩ := wrapper?_fieldLine hline
    rw [wrapperBlocks, hneeds] at hws
    replace hws : (if needs = true then do
        return (← wrapperBlock elements f) :: (← wrapperBlocks elements rest)
      else wrapperBlocks elements rest) = .ok ws := hws
    cases needs with
    | false =>
      rw [List.filterMap_cons_none (by simpa using hwrapper)]
      exact ih hlines' hws
    | true =>
      obtain ⟨b, hb, hws⟩ := bind_eq_ok.mp hws
      obtain ⟨ws', hws', hcons⟩ := bind_eq_ok.mp hws
      cases hcons
      rw [List.filterMap_cons_some (by simpa using hwrapper), List.map_cons, name_wrapperBlock hb,
        ih hlines' hws']

theorem used_sublist {fields : List Field} {lines : List FieldLine}
    (hlines : fields.mapM (fieldLine elements) = .ok lines) :
    (lines.filterMap (·.storage.wrapper?)).Sublist (fields.map wrapperName) := by
  induction fields generalizing lines with
  | nil =>
    cases hlines
    exact .slnil
  | cons f rest ih =>
    rw [List.mapM_cons] at hlines
    obtain ⟨line, hline, hlines⟩ := bind_eq_ok.mp hlines
    obtain ⟨lines', hlines', hcons⟩ := bind_eq_ok.mp hlines
    cases hcons
    obtain ⟨needs, -, hwrapper⟩ := wrapper?_fieldLine hline
    cases needs with
    | false =>
      rw [List.filterMap_cons_none (by simpa using hwrapper)]
      exact (ih hlines').cons _
    | true =>
      rw [List.filterMap_cons_some (by simpa using hwrapper)]
      exact (ih hlines').cons_cons _

/-- No element of an array is wrapped again. -/
theorem wrapperBlock_wraps {f : Field} {b : StructBlock} (h : wrapperBlock elements f = .ok b) :
    ∀ b' ∈ b.withInner, b'.Wraps := by
  obtain ⟨layout, -, h⟩ := bind_eq_ok.mp h
  obtain ⟨lines, hlines, h⟩ := bind_eq_ok.mp h
  cases h
  have hplain : ∀ line ∈ lines, line.storage.wrapper? = none ∧ line.Spelled := by
    refine forall_of_forall₂ (mapM_eq_ok.mp hlines) fun index line hline => ?_
    obtain ⟨s, hs, hline⟩ := bind_eq_ok.mp hline
    obtain ⟨offset, -, hslot⟩ := bind_eq_ok.mp (mapError_eq_ok.mp hs)
    cases hslot
    obtain ⟨needs, hneeds, hwrapper⟩ := wrapper?_fieldLine hline
    cases hneeds
    exact ⟨hwrapper, fieldLine_spelled hline⟩
  have hused : lines.filterMap (·.storage.wrapper?) = [] :=
    List.filterMap_eq_nil_iff.mpr fun line hline => (hplain line hline).1
  intro b' hb'
  obtain rfl : b' = ⟨wrapperName f, "", f.type, lines, [], []⟩ := by
    simpa [StructBlock.withInner, blocksWithInner] using hb'
  exact ⟨by rw [StructBlock.used, hused]; exact .nil, hused, fun line hline => (hplain line hline).2⟩

/-- In a struct and in all structs nested in it, no two fields could share a wrapper. -/
inductive Struct.Apart : Struct → Prop
  | mk {name comment : String} {type : TypeUse} {fields : List Field} {nested : List Struct}
      (fields_apart : (fields.map wrapperName).Nodup)
      (nested_apart : ∀ s ∈ nested, Struct.Apart s) :
      Struct.Apart ⟨name, comment, type, fields, nested⟩

theorem wrapperBlocks_wrap {fields : List Field} {ws : List StructBlock}
    (h : wrapperBlocks elements fields = .ok ws) : ∀ b ∈ blocksWithInner ws, b.Wraps := by
  induction fields generalizing ws with
  | nil =>
    cases h
    simp [blocksWithInner]
  | cons f rest ih =>
    unfold wrapperBlocks at h
    obtain ⟨needs, -, h⟩ := bind_eq_ok.mp h
    cases needs with
    | false => exact ih h
    | true =>
      obtain ⟨b, hb, h⟩ := bind_eq_ok.mp h
      obtain ⟨ws', hws', hcons⟩ := bind_eq_ok.mp h
      cases hcons
      intro b' hb'
      rcases List.mem_append.mp hb' with hb' | hb'
      · exact wrapperBlock_wraps hb b' hb'
      · exact ih hws' b' hb'

mutual

theorem Struct.block_wraps : ∀ {s : Struct} {b : StructBlock}, Struct.Apart s →
    Struct.block elements s = .ok b → ∀ b' ∈ b.withInner, b'.Wraps
  | ⟨name, comment, type, fields, nested⟩, b, .mk hfields hnested, h => by
    obtain ⟨lines, hlines, h⟩ := bind_eq_ok.mp h
    obtain ⟨ws, hws, h⟩ := bind_eq_ok.mp h
    obtain ⟨inner, hinner, h⟩ := bind_eq_ok.mp h
    cases h
    intro b' hb'
    rw [StructBlock.withInner, List.mem_cons, List.mem_append] at hb'
    rcases hb' with rfl | hb' | hb'
    · refine ⟨hfields.sublist (used_sublist hlines), used_eq_declared hlines hws, ?_⟩
      exact forall_of_forall₂ (mapM_eq_ok.mp hlines) fun _ _ hline => fieldLine_spelled hline
    · exact wrapperBlocks_wrap hws b' hb'
    · exact nestedBlocks_wrap hnested hinner b' hb'

theorem nestedBlocks_wrap : ∀ {ss : List Struct} {bs : List StructBlock},
    (∀ s ∈ ss, Struct.Apart s) → nestedBlocks elements ss = .ok bs →
      ∀ b ∈ blocksWithInner bs, b.Wraps
  | [], bs, _, h => by
    cases h
    simp [blocksWithInner]
  | s :: rest, bs, hapart, h => by
    obtain ⟨b, hb, h⟩ := bind_eq_ok.mp h
    obtain ⟨bs', hbs', hcons⟩ := bind_eq_ok.mp h
    cases hcons
    intro b' hb'
    rcases List.mem_append.mp hb' with hb' | hb'
    · exact Struct.block_wraps (hapart s List.mem_cons_self) hb b' hb'
    · exact nestedBlocks_wrap (fun s' hs' => hapart s' (List.mem_cons_of_mem _ hs')) hbs' b' hb'

end

end Wrappers

/-! ## Structs that come from a header -/

/-- The name of the wrapper of a field with this name in the header. -/
def nativeWrapperName (name : String) : String :=
  String.ofList ('_' :: name.toList ++ "_FixedBuffer".toList)

theorem nativeWrapperName_injective : Function.Injective nativeWrapperName := by
  intro a b h
  have hlist := String.ofList_injective h
  exact String.toList_injective (List.append_cancel_right (List.cons.inj hlist).2)

section Lowering

variable {o : Options}

theorem wrapperName_lowerField (f : Decl.Field) :
    Ends (lowerField o f) (fun f' => wrapperName f' = nativeWrapperName f.name) fun _ => True := by
  have hname (isWrapped : Bool) (comment : String) : wrapperName
      { name := escapeReserved o.reserved f.name, nativeName := f.name, comment
        type := TypeUse.ofDecl o.booleanTypeName f.type, offset := f.offset, padding := f.padding
        isWrapped } = nativeWrapperName f.name := by
    unfold wrapperName nativeWrapperName
    dsimp only
    split
    · -- A field without a name has an escape mark for a name or none at all.
      rename_i hempty
      obtain hempty : f.name = "" := by simpa using hempty
      rw [hempty, escapeReserved]
      split <;> rfl
    · rfl
  unfold lowerField
  dsimp only
  split
  · exact (Ends.any _).bind fun _ _ => (Ends.any _).bind fun _ _ => Ends.ok (hname _ _)
  · exact (Ends.any _).bind fun _ _ => (Ends.any _).bind fun _ _ => Ends.ok (hname _ _)

theorem singleField_apart (name : String) (location : Option Decl.Location) (fieldName : String)
    (type : Decl.TypeUse) :
    Ends (singleField o name location fieldName type) Struct.Apart fun _ => True := by
  refine (Ends.any _).bind fun _ _ => Ends.ok (.mk ?_ fun _ hs => absurd hs (by simp))
  exact List.nodup_singleton _

-- What is known of the names in a record and in all records nested in it goes down the tree.
theorem lowerRecord_apart (r : Decl.Record)
    (h : ∀ r' ∈ withNested r, (r'.fields.map (·.name)).Nodup) :
    Ends (lowerRecord o r) Struct.Apart fun _ => True := by
  refine (lowerRecord_of_nodes (M := fun r s =>
    (∀ r' ∈ withNested r, (r'.fields.map (·.name)).Nodup) → Struct.Apart s) ?_ r).giving
      fun _ hs => hs h
  rintro r ⟨_, _, _, fields, nested⟩ - - hfields hnested h
  refine .mk ?_ fun n hn => ?_
  · have hnames : fields.map wrapperName = (r.fields.map (·.name)).map nativeWrapperName := by
      rw [List.map_map]
      exact map_eq_map_of_forall₂ (hfields.imp fun c f hf => (wrapperName_lowerField c).result hf)
    rw [hnames]
    exact (h r (self_mem_withNested r)).map nativeWrapperName_injective
  · obtain ⟨c, hc, hapart⟩ := exists_of_forall₂ hnested hn
    exact hapart fun r' hr' => h r' (withNested_of_mem hc r' hr')

theorem lower_apart {h : Decl.Header} {l : Lowered} (hl : lower o h = .ok l)
    (hnames : ∀ r ∈ allNested h.records, (r.fields.map (·.name)).Nodup) :
    ∀ s ∈ l.bindings.structs, Struct.Apart s := by
  refine lowered_structs hl (fun r hr => ?_) (fun a _ => ?_) fun p _ => ?_
  · exact lowerRecord_apart r fun r' hr' => hnames r' (withNested_subset hr r' hr')
  · exact singleField_apart _ _ _ _
  · exact singleField_apart _ _ _ _

end Lowering

theorem wrapperName_pointerField (type : TypeUse) :
    wrapperName (pointerField type) = "_Pointer_FixedBuffer" := by
  have hclosed : String.ofList ('_' :: (if "".isEmpty then "Pointer".toList.dropWhile (· == '@')
      else "".toList) ++ "_FixedBuffer".toList) = "_Pointer_FixedBuffer" := by decide
  unfold wrapperName pointerField
  dsimp only
  exact hclosed

/-! ## Whole headers -/

/-- **Every wrapper that is used is declared next to its use.**  In the blocks of a lowered header,
those of nested structs and of wrappers included, the wrappers that the fields are declared with are
distinct and stand in the same block, in the order of their use.  Only a function pointer is never
given a wrapper: its block has none, and uses one if its type is an array that cannot be declared in
place. -/
theorem wrappers_declared {o : Options} {h : Decl.Header} {l : Lowered} (hl : lower o h = .ok l)
    (hnames : ∀ r ∈ allNested h.records, (r.fields.map (·.name)).Nodup) (elements : ElementTable) :
    (∀ s ∈ l.bindings.structs, ∀ t, Struct.text elements s = .ok t →
        ∃ b, Struct.block elements s = .ok b ∧ b.text = .ok t ∧ ∀ b' ∈ b.withInner, b'.Wraps)
      ∧ ∀ p ∈ l.bindings.functionPointers, ∀ t, functionPointerText elements p = .ok t →
        ∃ b needs, functionPointerBlock elements p = .ok b ∧ b.text = .ok t
          ∧ needsWrapper elements (pointerField p.type) = .ok needs
          ∧ b.declared = [] ∧ b.used = if needs then ["_Pointer_FixedBuffer"] else [] := by
  refine ⟨fun s hs t ht => ?_, fun p _ t ht => ?_⟩
  · obtain ⟨b, hb, hbt⟩ := Struct.text_eq_ok.mp ht
    exact ⟨b, hb, hbt, Struct.block_wraps (lower_apart hl hnames s hs) hb⟩
  · obtain ⟨b, hb, hbt⟩ := functionPointerText_eq_ok.mp ht
    obtain ⟨line, hline, hmk⟩ := bind_eq_ok.mp hb
    cases hmk
    obtain ⟨needs, hneeds, hwrapper⟩ := wrapper?_fieldLine hline
    rw [wrapperName_pointerField] at hwrapper
    refine ⟨_, needs, hb, hbt, hneeds, rfl, ?_⟩
    cases needs with
    | true => exact List.filterMap_cons_some hwrapper
    | false => exact List.filterMap_cons_none hwrapper

/-- An array type whose elements have a struct type. -/
def arrayType (name : String) (count : Int) : Decl.TypeUse :=
  { name, nativeName := name, sizeOf := .int (8 * count), alignOf := .int 4
    arraySize := some (.int count), isSystem := false }

/-- A record and one nested in it with two wrapped arrays each, and a function pointer whose type is
such an array. -/
def wrappingHeader : Decl.Header where
  functions := []
  functionPointers := [⟨"Handlers", none, arrayType "Handler" 2⟩]
  records :=
    let fields : List Decl.Field :=
      [⟨"event", none, arrayType "Point" 2, .int 0, .int 0⟩,
       ⟨"path", none, arrayType "Point" 3, .int 16, .int 0⟩]
    [⟨"Shape", none, arrayType "Shape" 5, fields,
      [⟨"Inner", none, arrayType "Inner" 5, fields, []⟩]⟩]
  opaquePointers := []
  opaqueTypes := []
  aliases := []
  enumerations := []

theorem wrappers_declared_shape :
    ∃ l s p b b', lower Options.default wrappingHeader = .ok l
      ∧ l.bindings.structs = [s] ∧ l.bindings.functionPointers = [p]
      ∧ Struct.block primitiveElements s = .ok b ∧ (∀ inner ∈ b.withInner, inner.Wraps)
      ∧ b.declared = ["_event_FixedBuffer", "_path_FixedBuffer"]
      ∧ functionPointerBlock primitiveElements p = .ok b'
      ∧ b'.declared = [] ∧ b'.used = ["_Pointer_FixedBuffer"] := by
  have hrun : (lower Options.default wrappingHeader).toOption.map (fun l =>
      (l.bindings.structs.map fun s =>
        ((Struct.text primitiveElements s).toOption.isSome,
          (Struct.block primitiveElements s).toOption.map (·.declared)),
       l.bindings.functionPointers.map fun p =>
        ((functionPointerText primitiveElements p).toOption.isSome,
          (functionPointerBlock primitiveElements p).toOption.map (·.used))))
      = some ([(true, some ["_event_FixedBuffer", "_path_FixedBuffer"])],
          [(true, some ["_Pointer_FixedBuffer"])]) := by
    decide +kernel
  have hnames : ∀ r ∈ allNested wrappingHeader.records, (r.fields.map (·.name)).Nodup := by
    decide
  cases hl : lower Options.default wrappingHeader with
  | error fault =>
    rw [hl] at hrun
    cases hrun
  | ok l =>
    rw [hl] at hrun
    obtain ⟨hstructs, hpointers⟩ := Prod.mk.inj (Option.some.inj hrun)
    obtain ⟨s, hs, hstruct⟩ := List.map_eq_singleton_iff.mp hstructs
    obtain ⟨p, hp, hpointer⟩ := List.map_eq_singleton_iff.mp hpointers
    obtain ⟨hsOk, hdeclared⟩ := Prod.mk.inj hstruct
    obtain ⟨hpOk, hused⟩ := Prod.mk.inj hpointer
    obtain ⟨t, ht⟩ := Option.isSome_iff_exists.mp hsOk
    obtain ⟨t', ht'⟩ := Option.isSome_iff_exists.mp hpOk
    obtain ⟨b, hb, -, hwraps⟩ := (wrappers_declared hl hnames primitiveElements).1 s
      (hs ▸ List.mem_singleton_self s) t (toOption_eq_some.mp ht)
    obtain ⟨b', needs, hb', -, -, hnone, -⟩ := (wrappers_declared hl hnames primitiveElements).2 p
      (hp ▸ List.mem_singleton_self p) t'
        (toOption_eq_some.mp ht')
    rw [hb] at hdeclared
    rw [hb'] at hused
    exact ⟨l, s, p, b, b', rfl, hs, hp, hb, hwraps, Option.some.inj hdeclared, hb', hnone,
      Option.some.inj hused⟩

end Interop.Source
