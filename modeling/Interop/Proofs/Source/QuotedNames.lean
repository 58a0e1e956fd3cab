import Interop.Proofs.Binding.Admitted
import Interop.Proofs.Binding.Parameters
import Interop.Proofs.Source.FileLiterals
import Interop.Proofs.Source.Provenance

/-!
# Names in quotes

The name of the library and the native names of functions are written between quotes as they are,
and the compiler reads the text between quotes as a literal.  The literal is the name just for some
names (`names_quoted`): those without quotes, backslashes and line breaks.  Inside a namespace the
class is indented line by line, and then the line breaks are more than those of the compiler.

Other names fail in different ways.  A backslash begins an escape, which stands for something else
or for nothing; a quote ends the literal; a line break leaves it open.  In no case is the name read
back by accident, neither there nor in an earlier line that a break in the name has made.
-/

set_option autoImplicit false

namespace Interop.Decl

/-- No line ends inside the names of the parameters and of the types. -/
structure Function.OneLine (f : Function) : Prop where
  returnType : Text.SingleLine f.returnType.name.toList
  parameters : ∀ p ∈ f.parameters,
    Text.SingleLine p.name.toList ∧ Text.SingleLine p.type.name.toList

end Interop.Decl

namespace Interop.Source

open Binding Text

variable {g : Generator} {p : Profile} {b : Bindings} {e : Emitted}

/-! ## The name of the library -/

/-- What the literal of a name has to read as. -/
def spelled (n : String) : Option (List Nat) := some (utf16 n.toList)

theorem libraryNameLine_parts (g : Generator) : g.libraryNameLine
    = indentation ++ libraryMark ++ '"' :: (g.libraryName.toList ++ '"' :: [';']) := by
  have hfront : "    private const string LibraryName = \"".toList
      = indentation ++ libraryMark ++ ['"'] := by decide
  have hback : "\";".toList = ['"', ';'] := by decide
  unfold Generator.libraryNameLine
  rw [hfront, hback]
  simp only [List.append_assoc, List.cons_append, List.nil_append]

/-- The literal of the library in a file: the first one behind its mark. -/
def libraryLiteral (source : List Char) : Option (Option (List Nat)) :=
  (literalsAfter libraryMark (splitOn '\n' source)).head?

theorem closing_semicolon : Closing [';'] := ⟨by decide, by decide, [], ';', rfl, by decide⟩

/-- The first literal of a file behind the mark of the library is the name of the library exactly if
the name can be quoted.  If it cannot, parts of it may stand behind the mark in earlier lines, but
they are too short to be all of it. -/
theorem libraryLiteral_iff (hg : g.Framed) (hp : g.profile = .ok p)
    (hc : b.Commented LineComment) (he : emit p b = .ok e) :
    libraryLiteral e.source.toList = some (spelled g.libraryName)
      ↔ Quotable g.classBreaks g.libraryName.toList := by
  have hgap : ∀ c ∈ indentation, c = ' ' := by simp [indentation]
  obtain ⟨r, others, hread, hname, -⟩ := literalsAfter_quoted g.cuts_classBreaks hgap
    marking_library.begins marking_library.singleLine closing_semicolon g.libraryName.toList
  obtain ⟨texts, -, hsource⟩ := literalsAfter_source hp hc he marking_library
  rw [libraryLiteral, hsource, libraryNameLine_parts, hread, ← hname]
  constructor
  · intro hhead
    cases habove : literalsAbove libraryMark g with
    | nil =>
      rw [habove] at hhead
      exact Option.some.inj hhead
    | cons r' above =>
      rw [habove] at hhead
      have hharmless := literalsAbove_harmless marking_library hg r' (by rw [habove]; simp)
      exact absurd (Option.some.inj hhead) hharmless
  · intro hr
    have hquotable := hname.mp hr
    have habove : literalsAbove libraryMark g = [] := by
      refine literalsAbove_silent marking_library hg (fun c hc => ?_) fun c hc => (hquotable c hc).2
      have hends := (hquotable c hc).1.2.2
      constructor <;> rintro rfl <;> exact absurd hends (by decide)
    rw [habove, hr]
    rfl

/-! ## The native names of functions -/

theorem conventionName_eq_ok {x : Decl.CallingConvention} {name : String}
    (h : conventionName x = .ok name) : name = "Cdecl" ∨ name = "Winapi" := by
  cases x with
  | c => exact .inl (Except.ok.inj h).symm
  | unknown => exact .inr (Except.ok.inj h).symm
  | other => cases h

theorem entryLine_parts (nativeName convention : List Char) :
    entryLine nativeName convention = [] ++ entryMark ++ '"' :: (nativeName
      ++ '"' :: (", CallingConvention = CallingConvention.".toList ++ convention ++ [')', ']'])) := by
  have hfront : "[DllImport(LibraryName, EntryPoint = \"".toList = entryMark ++ ['"'] := by decide
  have hback : "\", CallingConvention = CallingConvention.".toList
      = '"' :: ", CallingConvention = CallingConvention.".toList := by decide
  unfold entryLine
  rw [hfront, hback]
  simp only [List.append_assoc, List.cons_append, List.nil_append]

theorem closing_convention {name : String} (h : name = "Cdecl" ∨ name = "Winapi") :
    Closing (", CallingConvention = CallingConvention.".toList ++ name.toList ++ [')', ']']) := by
  refine ⟨?_, ?_, ", CallingConvention = CallingConvention.".toList ++ name.toList ++ [')'], ']',
    by simp, by decide⟩
  · rcases h with rfl | rfl <;> decide
  · rcases h with rfl | rfl <;> decide

/-- The names in a function are one line each; that of the function itself has to be only if its
native name is. -/
structure Inline (f : Function) : Prop where
  name : SingleLine f.nativeName.toList → SingleLine f.name.toList
  returnType : f.returnType.Meets shown
  parameters : ∀ p ∈ f.parameters, p.Meets shown

/-- A comment above a text says nothing. -/
theorem literalsAfter_commentLine {comment : String} (hc : LineComment comment) (t : List Char) :
    literalsAfter entryMark ((rows (commentLine comment ++ t)).map trimLine)
      = literalsAfter entryMark ((rows t).map trimLine) := by
  rcases hc with rfl | ⟨hline, rest, hrest⟩
  · rfl
  · have hbegins : Begins comment.toList := by
      rw [← hrest]
      exact begins_slash _
    have hother : entryMark.isPrefixOf (unindent comment.toList) = false := by
      rw [← hrest]
      rfl
    rw [commentLine_append hbegins, rows_append, rows_singleLine hline, List.map_append,
      literalsAfter_append]
    exact congrArg (· ++ _) (literalsAfter_other hother)

/-- The first literal of a function behind the mark is its native name exactly if the name can be
quoted, and then the function has no other. -/
theorem functionText_literals {f : Function} {t : List Char} (hc : LineComment f.comment)
    (hf : Inline f) (h : functionText f = .ok t) :
    ∃ r others, literalsAfter entryMark ((rows t).map trimLine) = r :: others
      ∧ (r = spelled f.nativeName ↔ Quotable isLineBreak f.nativeName.toList)
      ∧ (Quotable isLineBreak f.nativeName.toList → others = []) := by
  rw [functionText_eq] at h
  obtain ⟨convention, hconvention, h⟩ := bind_eq_ok.mp h
  obtain ⟨signature, hsignature, h⟩ := bind_eq_ok.mp h
  obtain ⟨parameters, hparameters, h⟩ := bind_eq_ok.mp h
  cases h
  obtain ⟨r, others, hread, hname, hothers⟩ := literalsAfter_quoted cuts_isLineBreak
    (nofun : ∀ c ∈ ([] : List Char), c = ' ') marking_entry.begins marking_entry.singleLine
    (closing_convention (conventionName_eq_ok hconvention)) f.nativeName.toList
  rw [← entryLine_parts, ← rows_eq_cut] at hread
  refine ⟨r, others ++ literalsAfter entryMark
    ((rows (externLine signature (joinWith [',', ' '] parameters))).map trimLine), ?_, hname,
    fun hquotable => ?_⟩
  · rw [literalsAfter_commentLine hc, rows_append, List.map_append, literalsAfter_append, hread]
    rfl
  -- The line below declares the function under a name without line breaks, and has no mark.
  · have hfname := hf.name fun c hc => (hquotable c hc).2
    obtain ⟨s, hs, hline⟩ := hf.returnType.name
    have hsignatureLine : SingleLine signature :=
      (declaration_ends (Q := fun _ => True) hs hline hfname).result hsignature
    have hparameterLines : ∀ t ∈ parameters, SingleLine t :=
      forall_of_forall₂ ((Ends.mapM (Q := fun _ => True) fun p hp =>
        parameterText_ends (hf.parameters p hp)).result hparameters) fun _ _ h => h
    have hextern : SingleLine (externLine signature (joinWith [',', ' '] parameters)) := by
      unfold externLine
      simp only [singleLine_append, singleLine_cons]
      exact ⟨by decide, hsignatureLine, ⟨rfl, SingleLine.joinWith (by decide) hparameterLines⟩,
        by decide⟩
    have hother : entryMark.isPrefixOf
        (unindent (externLine signature (joinWith [',', ' '] parameters))) = false := rfl
    rw [hothers hquotable, rows_singleLine hextern, List.nil_append]
    exact literalsAfter_other hother

/-- What is expected of each list comes first in all of them just when each list is what is expected
of it, since only a list that is not can hold more. -/
theorem prefix_flatten_iff {α β : Type} {expected : α → β} {right : α → Prop} {xs : List α}
    {lists : List (List β)}
    (h : List.Forall₂ (fun x list => ∃ r others, list = r :: others
      ∧ (r = expected x ↔ right x) ∧ (right x → others = [])) xs lists) (rest : List β) :
    xs.map expected <+: lists.flatten ++ rest ↔ ∀ x ∈ xs, right x := by
  induction h with
  | nil => exact ⟨fun _ => nofun, fun _ => List.nil_prefix⟩
  | @cons x list xs lists hlist _ ih =>
    obtain ⟨r, others, rfl, hright, hothers⟩ := hlist
    rw [List.map_cons, List.flatten_cons, List.cons_append, List.cons_append,
      List.cons_prefix_cons, List.forall_mem_cons]
    constructor
    · rintro ⟨hr, hprefix⟩
      have hx := hright.mp hr.symm
      rw [hothers hx] at hprefix
      exact ⟨hx, ih.mp hprefix⟩
    · rintro ⟨hx, hxs⟩
      rw [hothers hx]
      exact ⟨(hright.mpr hx).symm, ih.mpr hxs⟩

/-- The literals of the functions in a file: all that stand behind their mark, in order. -/
def entryLiterals (source : List Char) : List (Option (List Nat)) :=
  literalsAfter entryMark (splitOn '\n' source)

theorem aside_libraryName : Aside entryMark (indentation ++ libraryMark ++ ['"']) :=
  ⟨by decide, fun _ => rfl⟩

theorem literalsAfter_libraryNameLine (h : SingleLine g.libraryName.toList) :
    literalsAfter entryMark ((cut g.classBreaks g.libraryNameLine).map trimLine) = [] := by
  have hline : SingleLine (g.libraryName.toList ++ '"' :: [';']) :=
    singleLine_append.mpr ⟨h, by decide⟩
  have hsplit : g.libraryNameLine
      = (indentation ++ libraryMark ++ ['"']) ++ (g.libraryName.toList ++ '"' :: [';']) := by
    rw [libraryNameLine_parts, List.append_assoc (indentation ++ libraryMark), List.singleton_append]
  have hlast : (g.libraryName.toList ++ '"' :: [';']).getLast? ≠ some '\r' :=
    (closing_semicolon.quoted _).2
  rw [hsplit]
  exact aside_libraryName.silent g.cuts_classBreaks (g.cuts_classBreaks.unbroken hline) hlast

/-- The native names of the functions are what comes first behind the mark exactly if all of them can
be quoted. -/
theorem entryLiterals_iff (hg : g.Framed) (hp : g.profile = .ok p)
    (hc : b.Commented LineComment) (hf : ∀ f ∈ b.functions, Inline f)
    (he : emit p b = .ok e) (hlibrary : SingleLine g.libraryName.toList) :
    (b.functions.map (·.nativeName)).map spelled <+: entryLiterals e.source.toList
      ↔ ∀ n ∈ b.functions.map (·.nativeName), Quotable isLineBreak n.toList := by
  obtain ⟨texts, htexts, hsource⟩ := literalsAfter_source hp hc he marking_entry
  have hends : ∀ c ∈ g.libraryName.toList, c ≠ '\n' ∧ c ≠ '\r' := by
    intro c hc
    constructor <;> rintro rfl <;> exact absurd (hlibrary _ hc) (by decide)
  have habove : literalsAbove entryMark g = [] :=
    literalsAbove_silent marking_entry hg hends (g.cuts_classBreaks.unbroken hlibrary)
  rw [Bindings.members, List.append_assoc, List.append_assoc, List.append_assoc,
    List.mapM_append] at htexts
  obtain ⟨functions, hfunctions, htexts⟩ := bind_eq_ok.mp htexts
  obtain ⟨others, -, htexts⟩ := bind_eq_ok.mp htexts
  cases htexts
  rw [List.mapM_map] at hfunctions
  have hread : List.Forall₂ (fun (f : Function) list => ∃ r others, list = r :: others
      ∧ (r = spelled f.nativeName ↔ Quotable isLineBreak f.nativeName.toList)
      ∧ (Quotable isLineBreak f.nativeName.toList → others = [])) b.functions
      (functions.map fun t => literalsAfter entryMark ((rows t).map trimLine)) := by
    rw [List.forall₂_map_right_iff]
    exact forall₂_of_mem_left (mapM_eq_ok.mp hfunctions) fun f hmem t ht =>
      functionText_literals (hc.functions f hmem) (hf f hmem) ht
  rw [entryLiterals, hsource, habove, literalsAfter_libraryNameLine hlibrary, List.nil_append,
    List.nil_append, List.flatMap_append, List.flatMap_def, List.map_map, List.forall_mem_map]
  exact prefix_flatten_iff hread _

/-! ## Lowered functions -/

/-- The functions with a calling convention that can be bound. -/
def bindable (fs : List Decl.Function) : List Decl.Function :=
  fs.filter fun f => f.callingConvention matches .c | .unknown

section Lowering

variable {o : Options}

theorem escapeReserved_singleLine (reserved : List String) {name : String}
    (h : SingleLine name.toList) : SingleLine (escapeReserved reserved name).toList := by
  unfold escapeReserved
  split
  · rw [String.toList_append]
    exact singleLine_append.mpr ⟨by decide, h⟩
  · exact h

theorem freeName_singleLine {candidate name : String} {used : List String}
    (hcandidate : SingleLine candidate.toList) (h : freeName candidate used = .ok name) :
    SingleLine name.toList := by
  have hfirst : SingleLine (firstCandidate candidate).toList := by
    unfold firstCandidate
    split
    · decide
    · exact hcandidate
  obtain ⟨-, k, hafter⟩ := freeName_eq_ok h
  cases k with
  | zero =>
    cases hafter
    exact hfirst
  | succ k =>
    rw [(candidateAfter_ends _ k).result hafter, String.toList_ofList, singleLine_append]
    refine ⟨hfirst.mono fun _ hc => (stem_begins _).subset hc, fun c hc => ?_⟩
    exact inked_unbroken.numeral (Bool.or_eq_true_iff.mpr (.inl (Number.isDigit_of_mem_natDigits hc)))

theorem ofDecl_shown {boolean : String} (hname : o.booleanTypeName = .text boolean)
    (hboolean : SingleLine boolean.toList) {t : Decl.TypeUse} (ht : SingleLine t.name.toList) :
    (TypeUse.ofDecl o.booleanTypeName t).Meets shown := by
  refine ⟨?_, trivial, trivial, fun _ _ => trivial⟩
  unfold TypeUse.ofDecl
  dsimp only
  split
  · exact ⟨boolean, hname, hboolean⟩
  · exact ⟨t.name, rfl, ht⟩

variable {boolean : String} (hname : o.booleanTypeName = .text boolean)
  (hboolean : SingleLine boolean.toList)

include hname hboolean

theorem lowerParameters_shown (taken : List String) {ps : List Decl.Parameter}
    (h : ∀ p ∈ ps, SingleLine p.name.toList ∧ SingleLine p.type.name.toList) :
    Ends (lowerParameters o taken ps) (fun qs => ∀ q ∈ qs, q.Meets shown) fun _ => True := by
  induction ps generalizing taken with
  | nil => exact Ends.ok fun _ hq => absurd hq List.not_mem_nil
  | cons p ps ih =>
    obtain ⟨⟨hp, htype⟩, hps⟩ := List.forall_mem_cons.mp h
    unfold lowerParameters
    have hfree : Ends (numeric (freeName p.name taken)) (fun n => SingleLine n.toList)
        fun _ => True :=
      ⟨fun h => freeName_singleLine hp (mapError_eq_ok.mp h), fun _ => trivial⟩
    refine hfree.bind fun name hchosen => (Ends.any _).bind fun comment _ => ?_
    refine (ih _ hps).bind fun rest hrest => Ends.ok (List.forall_mem_cons.mpr ⟨?_, hrest⟩)
    exact ⟨escapeReserved_singleLine o.reserved hchosen, ofDecl_shown hname hboolean htype⟩

/-- A function keeps its native name, and its strings are one line each if that name is. -/
theorem lowerFunction_inline {f : Decl.Function} (h : f.OneLine) :
    Ends (lowerFunction o f) (fun f' => f'.nativeName = f.name ∧ Inline f')
      fun _ => True := by
  unfold lowerFunction
  cases f.callingConvention with
  | other convention => exact Ends.error trivial
  | _ =>
    refine (Ends.any _).bind fun comment _ => ?_
    refine (lowerParameters_shown hname hboolean [] h.parameters).bind fun ps hps => ?_
    refine Ends.ok ⟨rfl, ⟨fun hline => ?_, ofDecl_shown hname hboolean h.returnType, hps⟩⟩
    exact escapeReserved_singleLine _ hline

end Lowering

section Bound

variable {α β : Type} {f : α → Outcome β} {x : α} {xs : List α}

theorem boundOf_cons_bound {b : β} (h : f x = .ok (.ok b)) :
    boundOf f (x :: xs) = b :: boundOf f xs :=
  List.filterMap_cons_some (f := fun x => (f x).bound?) (by rw [h]; rfl)

theorem boundOf_cons_refused {failure : Failure} (h : f x = .ok (.error failure)) :
    boundOf f (x :: xs) = boundOf f xs :=
  List.filterMap_cons_none (f := fun x => (f x).bound?) (by rw [h]; rfl)

end Bound

/-- The bindable functions are bound, in order. -/
theorem forall₂_boundOf_functions {o : Options} {fs : List Decl.Function}
    (h : ∀ f ∈ fs, (Outcome.ofFunction o f).Returns) :
    List.Forall₂ (fun f f' => lowerFunction o f = .ok f') (bindable fs)
      (boundOf (Outcome.ofFunction o) fs) := by
  induction fs with
  | nil => exact .nil
  | cons f fs ih =>
    obtain ⟨⟨r, hr⟩, hfs⟩ := List.forall_mem_cons.mp h
    have hkept (hf : f.callingConvention = .c ∨ f.callingConvention = .unknown) :
        List.Forall₂ (fun f f' => lowerFunction o f = .ok f') (f :: bindable fs)
          (boundOf (Outcome.ofFunction o) (f :: fs)) := by
      cases r with
      | error failure =>
        exact ((lowerFunction_unrefused o hf).failure (outcome_eq_refused hr)).elim
      | ok f' =>
        rw [boundOf_cons_bound hr]
        exact .cons (outcome_eq_bound hr) (ih hfs)
    unfold bindable
    cases hconvention : f.callingConvention with
    | c =>
      rw [List.filter_cons_of_pos (by simp [hconvention])]
      exact hkept (.inl hconvention)
    | unknown =>
      rw [List.filter_cons_of_pos (by simp [hconvention])]
      exact hkept (.inr hconvention)
    | other convention =>
      have hrefused : Outcome.ofFunction o f
          = .ok (.error ⟨.function, f.name, f.location,
              ⟨.unsupportedConvention convention, f.name, f.location⟩⟩) := by
        rw [Outcome.ofFunction, lowerFunction, hconvention]
        rfl
      rw [List.filter_cons_of_neg (by simp [hconvention]), boundOf_cons_refused hrefused]
      exact ih hfs

/-- **Names in literals.**  Names stand in the file between quotes as they are, and the locations and
the names that are not quoted are supposed to have no line breaks.  The first literal behind the mark
of the library is the name of the library exactly if that name can be quoted; inside a namespace it
is indented, and then every line break counts.  With a library name that is one line the literals
behind the mark of the functions begin with the names of the bindable functions, in order, exactly if
all these can be quoted. -/
theorem names_quoted {o : Options} {boolean : String} (hname : o.booleanTypeName = .text boolean)
    (hboolean : SingleLine boolean.toList) {h : Decl.Header}
    (hlocations : ∀ l ∈ h.locations, l.OneLine) (hfunctions : ∀ f ∈ h.functions, f.OneLine)
    {l : Lowered} (hl : lower o h = .ok l) (hg : g.Framed) (hp : g.profile = .ok p)
    (he : emit p l.bindings = .ok e) :
    (libraryLiteral e.source.toList = some (spelled g.libraryName)
      ↔ Quotable g.classBreaks g.libraryName.toList)
    ∧ (SingleLine g.libraryName.toList →
      (((bindable h.functions).map (·.name)).map spelled <+: entryLiterals e.source.toList
        ↔ ∀ n ∈ (bindable h.functions).map (·.name), Quotable isLineBreak n.toList)) := by
  obtain ⟨-, -, -, hcomments⟩ := (lower_unlocated o hlocations).result hl
  refine ⟨libraryLiteral_iff hg hp hcomments he, fun hlibrary => ?_⟩
  obtain ⟨hreturns, rfl⟩ := lower_eq_ok.mp hl
  have hpairs : List.Forall₂ (fun f f' => f'.nativeName = f.name ∧ Inline f')
      (bindable h.functions) (lowered o h).bindings.functions := by
    have hbound := forall₂_boundOf_functions (o := o) fun f hf =>
      Outcome.returns_map.mp ((forall_declarations.mp hreturns).1 f hf)
    refine forall₂_of_mem_left hbound fun f hf f' hlowered => ?_
    have hline := hfunctions f (List.mem_filter.mp hf).1
    exact (lowerFunction_inline hname hboolean hline).result hlowered
  have hnames : (lowered o h).bindings.functions.map (·.nativeName)
      = (bindable h.functions).map (·.name) := map_eq_map_of_forall₂ (hpairs.imp fun _ _ h => h.1)
  have hread := entryLiterals_iff hg hp hcomments (forall_of_forall₂ hpairs fun _ _ h => h.2) he
    hlibrary
  rwa [hnames] at hread

/-- A function that is bound. -/
def drawHeader : Decl.Header where
  functions := [⟨"draw", none, .c, sizedType "void" (.int 0),
    [⟨"count", none, sizedType "int" (.int 4), false⟩]⟩]
  functionPointers := []
  records := []
  opaquePointers := []
  opaqueTypes := []
  aliases := []
  enumerations := []

/-- A generator for a library, with a class and a namespace of other names. -/
def drawGenerator (libraryName : String) : Generator where
  libraryName
  className := some "Canvas"
  namespaceName := some "Geometry"
  usings := []
  elements := primitiveElements

theorem drawGenerator_framed (libraryName : String) : (drawGenerator libraryName).Framed := by
  refine ⟨?_, ?_, nofun⟩
  · rintro _ ⟨⟩
    decide
  · rintro _ ⟨⟩
    decide

def drawProfile (libraryName : String) : Profile :=
  { libraryName := .text libraryName, className := .text "Canvas"
    namespaceName := .text "Geometry", usings := [], elements := primitiveElements }

/-- The name of a library is read back, and so is that of its function.  With a path for the name of
the library only the name of the function is. -/
theorem names_quoted_draw :
    ∃ l e e', lower Options.default drawHeader = .ok l
      ∧ emit (drawProfile "canvas") l.bindings = .ok e
      ∧ emit (drawProfile "lib\\canvas.dll") l.bindings = .ok e'
      ∧ libraryLiteral e.source.toList = some (spelled "canvas")
      ∧ [spelled "draw"] <+: entryLiterals e.source.toList
      ∧ libraryLiteral e'.source.toList ≠ some (spelled "lib\\canvas.dll")
      ∧ [spelled "draw"] <+: entryLiterals e'.source.toList := by
  have hrun : (lower Options.default drawHeader).toOption.map (fun l =>
      ((emit (drawProfile "canvas") l.bindings).toOption.isSome,
        (emit (drawProfile "lib\\canvas.dll") l.bindings).toOption.isSome))
      = some (true, true) := by decide +kernel
  obtain ⟨l, hl, hseen⟩ := Option.map_eq_some_iff.mp hrun
  obtain ⟨hok, hok'⟩ := Prod.mk.inj hseen
  obtain ⟨e, he⟩ := Option.isSome_iff_exists.mp hok
  obtain ⟨e', he'⟩ := Option.isSome_iff_exists.mp hok'
  have hl := toOption_eq_some.mp hl
  have he := toOption_eq_some.mp he
  have he' := toOption_eq_some.mp he'
  have hlocations : ∀ l ∈ drawHeader.locations, l.OneLine := nofun
  have hfunctions : ∀ f ∈ drawHeader.functions, f.OneLine := by
    intro f hf
    obtain rfl := List.mem_singleton.mp hf
    exact ⟨by decide, by decide⟩
  have hnames : (bindable drawHeader.functions).map (·.name) = ["draw"] := rfl
  have hquotable : ∀ n ∈ ["draw"], Quotable isLineBreak n.toList := by decide
  obtain ⟨hlibrary, hentries⟩ := names_quoted rfl (by decide) hlocations hfunctions hl
    (drawGenerator_framed "canvas") rfl he
  obtain ⟨hlibrary', hentries'⟩ := names_quoted rfl (by decide) hlocations hfunctions hl
    (drawGenerator_framed "lib\\canvas.dll") rfl he'
  rw [hnames] at hentries hentries'
  have hclean : Quotable (drawGenerator "canvas").classBreaks "canvas".toList := by decide
  have hbackslash : ¬ Quotable (drawGenerator "lib\\canvas.dll").classBreaks
      "lib\\canvas.dll".toList := by decide
  exact ⟨l, e, e', hl, he, he', hlibrary.mpr hclean, (hentries (by decide)).mpr hquotable,
    fun h => hbackslash (hlibrary'.mp h), (hentries' (by decide)).mpr hquotable⟩

end Interop.Source
