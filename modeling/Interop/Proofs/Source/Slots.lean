import Interop.Proofs.Source.Blocks
import Interop.Proofs.Source.Layout
import Mathlib.Order.Interval.Set.LinearOrder

/-!
# The slots of a wrapper

A wrapper has one slot for each element of its array, and all slots are of the same size: that of the
array divided by their number and rounded down.  Slots do not overlap or leave the array, whatever
the numbers are; what the rounding loses is left over behind the last one, so the slots fill the
array exactly if its size can be divided (`slots_inside`).  An array smaller than the number of its
elements has slots of no bytes, and an array without elements has no slots.

The block is there for every size.  Its text is not: a size with more digits than the limit cannot be
written, and nothing else is in the way but such an alignment (`text_slotBlock`).
-/

set_option autoImplicit false

namespace Interop.Source

open Binding Text Number

/-! ## Slots -/

/-- The line of a slot of this size: an element, behind the slots before it. -/
def slotLine (t : TypeUse) (size index : Nat) : FieldLine where
  name := "_" ++ Nat.repr index
  storage := .plain t.name
  offset := .int (index * size)
  size := .int size
  padding := .int 0

/-- The wrapper of an array of so many elements and such a size. -/
def slotBlock (f : Field) (count size : Nat) : StructBlock where
  name := wrapperName f
  comment := ""
  type := f.type
  fields := (List.range count).map (slotLine f.type (size / count))
  wrappers := []
  nested := []

/-- The bytes that a field takes up. -/
def FieldLine.bytes (line : FieldLine) : Set ℤ :=
  Set.Ico line.offset.integer (line.offset.integer + line.size.integer)

/-- The bytes that the fields of a block take up. -/
def StructBlock.bytes (b : StructBlock) : Set ℤ := {x | ∃ line ∈ b.fields, x ∈ line.bytes}

section Blocks

variable {elements : ElementTable} {f : Field} {count size : Nat}

theorem wrapperBlock_eq (elements : ElementTable) (hcount : f.type.count = some (.int count))
    (hsize : f.type.sizeOf = .int size) :
    wrapperBlock elements f = .ok (slotBlock f count size) := by
  have hlines : ((List.range count).mapM fun index => do
      fieldLine elements (← faulty (slot f.type (.int (size / count : Nat)) index)))
        = .ok ((List.range count).map (slotLine f.type (size / count))) :=
    mapM_eq_map fun index _ => rfl
  unfold wrapperBlock
  rw [elementLayout_int hcount hsize, ← Int.ofNat_fdiv]
  refine bind_eq_ok.mpr ⟨(count, .int (size / count : Nat)), rfl, ?_⟩
  exact bind_eq_ok.mpr ⟨_, hlines, rfl⟩

/-- The text of a wrapper is that of its block, failures included. -/
theorem wrapperText_eq_text (elements : ElementTable) (hcount : f.type.count = some (.int count))
    (hsize : f.type.sizeOf = .int size) :
    wrapperText elements f = (slotBlock f count size).text := by
  have hline : (fun index => do
      fieldText elements (← faulty (slot f.type (.int (size / count : Nat)) index)))
        = fun index => (slotLine f.type (size / count) index).text :=
    funext fun index => fieldText_eq _
  have hlayout : faulty (elementLayout f.type) = .ok (count, .int (size / count : Nat)) := by
    rw [elementLayout_int hcount hsize, ← Int.ofNat_fdiv]
    rfl
  unfold wrapperText
  simp only [hlayout, ok_bind, hline, slotBlock, StructBlock.text, blockTexts, List.mapM_map,
    List.append_nil]
  rfl

end Blocks

/-! ## Bytes -/

section Bytes

variable (t : TypeUse) (size : Nat)

theorem bytes_slotLine (index : Nat) :
    (slotLine t size index).bytes = Set.Ico (index * size : ℤ) (index * size + size) := rfl

theorem slots_disjoint (count : Nat) :
    ((List.range count).map (slotLine t size)).Pairwise fun a b => Disjoint a.bytes b.bytes := by
  rw [List.pairwise_map]
  refine List.pairwise_lt_range.imp fun {i j} hij => ?_
  have hnext : (i * size + size : ℤ) ≤ j * size := by
    have hmul := Nat.mul_le_mul_right size (Nat.succ_le_of_lt hij)
    rw [Nat.succ_mul] at hmul
    exact_mod_cast hmul
  rw [bytes_slotLine, bytes_slotLine, Set.disjoint_left]
  intro x hi hj
  have hbelow := hi.2
  have habove := hj.1
  omega

-- The induction is on the number of slots: one more begins where the others end.
theorem bytes_slots (count : Nat) :
    {x | ∃ line ∈ (List.range count).map (slotLine t size), x ∈ line.bytes}
      = Set.Ico (0 : ℤ) (count * size) := by
  induction count with
  | zero => simp
  | succ count ih =>
    have hnext : ((count + 1 : Nat) * size : ℤ) = count * size + size := by push_cast; ring
    have hzero : (0 : ℤ) ≤ count * size := by positivity
    have hgrows : (count * size : ℤ) ≤ count * size + size := by omega
    rw [hnext, ← Set.Ico_union_Ico_eq_Ico hzero hgrows, ← ih, ← bytes_slotLine t]
    ext x
    simp only [List.range_succ, List.map_append, List.map_singleton, List.mem_append,
      List.mem_singleton, Set.mem_ofPred_eq, Set.mem_union]
    constructor
    · rintro ⟨line, hline | rfl, hx⟩
      · exact .inl ⟨line, hline, hx⟩
      · exact .inr hx
    · rintro (⟨line, hline, hx⟩ | hx)
      · exact ⟨line, .inl hline, hx⟩
      · exact ⟨_, .inr rfl, hx⟩

theorem bytes_slotBlock (f : Field) (count size : Nat) :
    (slotBlock f count size).bytes = Set.Ico (0 : ℤ) (count * (size / count : Nat)) :=
  bytes_slots f.type (size / count) count

theorem slotBlock_covers_iff (f : Field) (count size : Nat) :
    (slotBlock f count size).bytes = Set.Ico (0 : ℤ) size ↔ count ∣ size := by
  rw [bytes_slotBlock]
  have hle : count * (size / count) ≤ size := Nat.mul_div_le size count
  constructor
  · intro hsame
    -- A byte behind the last slot would be one of the array that no slot has.
    by_contra hnot
    have hlt : count * (size / count) < size :=
      lt_of_le_of_ne hle fun heq => hnot ⟨size / count, heq.symm⟩
    have hmem : ((count * (size / count) : Nat) : ℤ) ∈ Set.Ico (0 : ℤ) size :=
      ⟨by positivity, by exact_mod_cast hlt⟩
    rw [← hsame] at hmem
    have hbelow := hmem.2
    push_cast at hbelow
    exact lt_irrefl _ hbelow
  · intro hdvd
    have hexact : (count * (size / count : Nat) : ℤ) = size := by
      exact_mod_cast Nat.mul_div_cancel' hdvd
    rw [hexact]

end Bytes

/-! ## Texts -/

/-- The text of a slot: its place, and an element of a type with this spelling. -/
def slotText (spelling : List Char) (size index : Nat) : List Char :=
  placeLine (index * size) size 0
    ++ '\n' :: ("public ".toList ++ (spelling ++ ' ' :: ("_" ++ Nat.repr index).toList) ++ [';'])

/-- The text of a wrapper: its layout, its name and its slots, with an empty line between slots. -/
def slotsText (f : Field) (spelling pack : List Char) (count size : Nat) : List Char :=
  let slots := (List.range count).map (slotText spelling (size / count))
  explicitLine (signedDigits size) pack ++ '\n' :: ("public struct ".toList
    ++ (wrapperName f).toList ++ '\n' :: braced (joinWith ['\n', '\n'] slots))

section Texts

variable {elements : ElementTable} {f : Field} {name : String} {count size : Nat}

theorem text_slotLine {t : TypeUse} (hname : t.name = .text name) (index : Nat) :
    Ends (slotLine t size index).text (· = slotText (normalizePointers name.toList) size index)
      (fun e => e = .fault (.number .tooManyDigitsToWrite)
        ∧ ¬ (Attribute.place (index * size) size 0).Short) := by
  have hdeclared : (slotLine t size index).storage.declaration (slotLine t size index).name
      = .ok (normalizePointers name.toList ++ ' ' :: ("_" ++ Nat.repr index).toList) := by
    show faulty (declaration t.name _) = _
    rw [hname]
    rfl
  unfold FieldLine.text
  refine Ends.of_ok hdeclared ((placement_eq _ _ _).bind fun placement hplacement => Ends.ok ?_)
  rw [hplacement]
  simp only [slotText, List.append_assoc]
  rfl

/-- No number in a slot is longer than the size of the array. -/
theorem slot_short (hsize : Number.Short size) {index : Nat} (hindex : index < count) :
    (Attribute.place (index * (size / count : Nat)) (size / count : Nat) 0).Short := by
  have hle : index * (size / count) ≤ size :=
    (Nat.mul_le_mul_right _ hindex.le).trans (Nat.mul_div_le size count)
  refine ⟨?_, Short.of_le (Nat.div_le_self size count) hsize, short_of_lt_ten (by decide)⟩
  exact_mod_cast Short.of_le hle hsize

theorem joinMembers_slots (spelling : List Char) (size : Nat) (indices : List Nat) :
    joinMembers (indices.map (slotText spelling size))
      = joinWith ['\n', '\n'] (indices.map (slotText spelling size)) := by
  refine joinMembers_of_ends fun t ht => ?_
  obtain ⟨index, -, rfl⟩ := List.mem_map.mp ht
  refine ⟨begins_bracket _, ?_⟩
  unfold slotText
  refine Finishes.append _ ?_
  exact finishes_semicolon ('\n' :: ("public ".toList ++ (spelling ++ _)))

/-- The slots of a wrapper have texts unless its size has too many digits. -/
theorem text_slotLines (hname : 0 < count → f.type.name = .text name) :
    Ends (((List.range count).map (slotLine f.type (size / count))).mapM FieldLine.text)
      (· = (List.range count).map (slotText (normalizePointers name.toList) (size / count)))
      (fun e => e = .fault (.number .tooManyDigitsToWrite) ∧ ¬ Number.Short size) := by
  have hslot (index : Nat) (hindex : index ∈ List.range count) :
      Ends (slotLine f.type (size / count) index).text
        (· = slotText (normalizePointers name.toList) (size / count) index)
        (fun e => e = .fault (.number .tooManyDigitsToWrite) ∧ ¬ Number.Short size) := by
    have hlt := List.mem_range.mp hindex
    refine (text_slotLine (hname (Nat.zero_lt_of_lt hlt)) index).failing fun e he => ?_
    exact ⟨he.1, fun hsize => he.2 (slot_short hsize hlt)⟩
  rw [List.mapM_map]
  exact (Ends.mapM hslot).giving fun texts htexts => eq_map_of_forall₂ htexts

/-- A wrapper has a text unless its size or its alignment has too many digits. -/
theorem text_slotBlock (hname : 0 < count → f.type.name = .text name)
    (hsize : f.type.sizeOf = .int size) :
    Ends (slotBlock f count size).text
      (fun t => Number.Short size ∧ ∃ pack, f.type.alignOf.text = .ok pack
        ∧ t = slotsText f (normalizePointers name.toList) pack count size)
      (fun e => e = .fault (.number .tooManyDigitsToWrite)
        ∧ ¬ (Number.Short size ∧ ∃ pack, f.type.alignOf.text = .ok pack)) := by
  have hwritten : Ends (numberText f.type.sizeOf)
      (fun digits => Number.Short size ∧ digits = signedDigits size)
      (fun e => e = .fault (.number .tooManyDigitsToWrite) ∧ ¬ Number.Short size) := by
    rw [hsize]
    exact (integerText_ends size).also fun _ h => short_of_intText (mapError_eq_ok.mp h)
  have haligned : Ends (numberText f.type.alignOf) (f.type.alignOf.text = .ok ·)
      (fun e => e = .fault (.number .tooManyDigitsToWrite)
        ∧ ¬ ∃ pack, f.type.alignOf.text = .ok pack) := by
    refine Ends.mapError ⟨id, fun {e} he => ?_⟩
    obtain rfl := (text_ends f.type.alignOf).failure he
    exact ⟨rfl, fun ⟨pack, hpack⟩ => absurd (he.symm.trans hpack) (by simp)⟩
  refine ((text_slotLines hname).failing fun e he => ⟨he.1, fun h => he.2 h.1⟩).bind
    fun texts htexts => ?_
  simp only [blockTexts, ok_bind, List.append_nil, structText_eq, htexts, joinMembers_slots]
  refine (hwritten.failing fun e he => ⟨he.1, fun h => he.2 h.1⟩).bind
    fun digits hdigits => ?_
  refine (haligned.failing fun e he => ⟨he.1, fun h => he.2 h.2⟩).bind
    fun pack hpack => Ends.ok ⟨hdigits.1, pack, hpack, ?_⟩
  rw [hdigits.2]
  rfl

end Texts

/-- **Slots lie inside their array.**  A wrapper has a plain field of the element type for each
element, in order, each behind the bytes of the one before.  No two of them share a byte and none has
one outside of the array; together they have all bytes of it exactly if its size is a multiple of the
number of elements.  Its text says the same.  There is one unless the size or the alignment has too
many digits, and then that is the failure. -/
theorem slots_inside {f : Field} {count size : Nat} (hcount : f.type.count = some (.int count))
    (hsize : f.type.sizeOf = .int size) (elements : ElementTable) :
    wrapperBlock elements f = .ok (slotBlock f count size)
      ∧ (slotBlock f count size).fields.Pairwise (fun a b => Disjoint a.bytes b.bytes)
      ∧ (∀ line ∈ (slotBlock f count size).fields, line.bytes ⊆ Set.Ico (0 : ℤ) size)
      ∧ ((slotBlock f count size).bytes = Set.Ico (0 : ℤ) size ↔ count ∣ size)
      ∧ ∀ name, (0 < count → f.type.name = .text name) →
        (∀ t, wrapperText elements f = .ok t ↔
          Number.Short size ∧ ∃ pack, f.type.alignOf.text = .ok pack
            ∧ t = slotsText f (normalizePointers name.toList) pack count size)
        ∧ ∀ e, wrapperText elements f = .error e → e = .fault (.number .tooManyDigitsToWrite) := by
  refine ⟨wrapperBlock_eq elements hcount hsize, slots_disjoint _ _ _, fun line hline => ?_,
    slotBlock_covers_iff f count size, fun name hname => ?_⟩
  · intro x hx
    have hbytes : x ∈ (slotBlock f count size).bytes := ⟨line, hline, hx⟩
    rw [bytes_slotBlock] at hbytes
    have hle : (count * (size / count : Nat) : ℤ) ≤ size := by
      exact_mod_cast Nat.mul_div_le size count
    exact ⟨hbytes.1, hbytes.2.trans_le hle⟩
  · rw [wrapperText_eq_text elements hcount hsize]
    have htext := text_slotBlock hname hsize
    refine ⟨fun t => ⟨htext.result, ?_⟩, fun e he => (htext.failure he).1⟩
    rintro ⟨hshort, pack, hpack, rfl⟩
    cases hblock : (slotBlock f count size).text with
    | error e => exact absurd ⟨hshort, pack, hpack⟩ (htext.failure hblock).2
    | ok t =>
      obtain ⟨-, pack', hpack', rfl⟩ := htext.result hblock
      rw [Except.ok.inj (hpack.symm.trans hpack')]

/-- An array without elements has no slots. -/
example (f : Field) (size : Nat) : (slotBlock f 0 size).fields = [] := rfl

/-- An array of three elements in eight bytes, two of which are left over. -/
def pointsField : Field where
  name := "points"
  nativeName := "points"
  comment := ""
  type := { name := .text " Point", nativeName := "Point", sizeOf := .int 8, alignOf := .int 2
            count := some (.int 3) }
  offset := .int 0
  padding := .int 0
  isWrapped := true

theorem slots_inside_points :
    (slotBlock pointsField 3 8).fields.Pairwise (fun a b => Disjoint a.bytes b.bytes)
      ∧ (slotBlock pointsField 3 8).bytes ≠ Set.Ico (0 : ℤ) (8 : Nat)
      ∧ wrapperText primitiveElements pointsField = .ok (joinLines [
          "[StructLayout(LayoutKind.Explicit, Size = 8, Pack = 2)]".toList,
          "public struct _points_FixedBuffer".toList,
          "\x7b".toList,
          "    [FieldOffset(0)] // size = 2, padding = 0".toList,
          "    public Point _0;".toList,
          "".toList,
          "    [FieldOffset(2)] // size = 2, padding = 0".toList,
          "    public Point _1;".toList,
          "".toList,
          "    [FieldOffset(4)] // size = 2, padding = 0".toList,
          "    public Point _2;".toList,
          "\x7d".toList]) := by
  obtain ⟨-, hdisjoint, -, hcovers, htext⟩ :=
    @slots_inside pointsField 3 8 rfl rfl primitiveElements
  refine ⟨hdisjoint, fun hall => absurd (hcovers.mp hall) (by decide), ?_⟩
  refine ((htext " Point" fun _ => rfl).1 _).mpr
    ⟨short_of_lt_ten (by decide), ['2'], ?_, by decide +kernel⟩
  exact (intText_ends 2).eq_ok fun e he => he.2 (short_of_lt_ten (by decide))

/-- An array of one element that takes up all of it. -/
def loneField (type : Value) (size : Nat) : Field where
  name := "point"
  nativeName := "point"
  comment := ""
  type := { name := type, nativeName := "Point", sizeOf := .int size, alignOf := .int 2
            count := some (.int 1) }
  offset := .int 0
  padding := .int 0
  isWrapped := true

/-- There is no wrapper of an array whose size has a digit more than can be written, and none of an
array whose elements are of a type that has a number for its name. -/
theorem lone_slot_unwritten :
    wrapperText primitiveElements (loneField (.text "Point") (tenTo 4300))
        = .error (.fault (.number .tooManyDigitsToWrite))
      ∧ wrapperText primitiveElements (loneField (.number (.int 5)) 4)
        = .error (.fault (.lacks "int" "strip")) := by
  refine ⟨?_, rfl⟩
  have hlong : ¬ Number.Short (tenTo 4300) := not_short_tenTo (by decide)
  have htext := @text_slotBlock (loneField (.text "Point") (tenTo 4300)) "Point" 1 (tenTo 4300)
    (fun _ => rfl) rfl
  rw [wrapperText_eq_text primitiveElements rfl rfl]
  cases h : (slotBlock (loneField (.text "Point") (tenTo 4300)) 1 (tenTo 4300)).text with
  | ok t => exact absurd (htext.result h).1 hlong
  | error e => rw [(htext.failure h).1]

end Interop.Source
