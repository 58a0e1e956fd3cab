import Interop.Proofs.Source.Comments

/-!
# Locations are provenance only

Where a declaration was found shows up in the comment above it and nowhere else.  Two headers that
are the same but for their locations are lowered to bindings that are the same but for their comments
(`lower_beside`), and these make files that are the same but for comment lines (`emit_beside`).  The
theorem here puts the two together: it goes from the one header to the other by way of the header
without locations.
-/

set_option autoImplicit false

namespace Interop.Source

open Binding Text

/-! ## The comment for a location -/

theorem lineComment_of_oneLine {l : Decl.Location} (h : l.OneLine) {t : List Char}
    (ht : l.comment = .ok t) : LineComment (String.ofList t) := by
  obtain ⟨line, hline, hret⟩ := bind_eq_ok.mp ht
  obtain rfl := Except.ok.inj hret
  have hnumber : SingleLine line := (text_chars inked_unbroken l.line).result hline
  right
  rw [String.toList_ofList]
  constructor
  · have hwhole : SingleLine ("// ".toList ++ l.kind.toList ++ " @ ".toList ++ l.fileName.toList
        ++ ':' :: line ++ ' ' :: l.dateTime.toList) := by
      simp only [singleLine_append, singleLine_cons]
      exact ⟨⟨⟨⟨⟨by decide, h.kind⟩, by decide⟩, h.fileName⟩, by decide, hnumber⟩, by decide,
        h.dateTime⟩
    exact hwhole.mono fun _ => mem_of_mem_dropWhileEnd
  · refine ⟨dropWhileEnd isBlank (" ".toList ++ l.kind.toList ++ " @ ".toList ++ l.fileName.toList
      ++ ':' :: line ++ ' ' :: l.dateTime.toList), ?_⟩
    have hslash : isBlank '/' = false := by decide
    exact ((dropWhileEnd_cons_of_neg hslash _).trans
      (congrArg _ (dropWhileEnd_cons_of_neg hslash _))).symm

theorem comment_of_writable {l : Decl.Location} (h : l.Writable) : ∃ t, l.comment = .ok t := by
  obtain ⟨line, hline⟩ := h
  rw [Decl.Location.comment, hline]
  exact ⟨_, rfl⟩

/-! ## Whole headers -/

/-- A header beside the one without locations. -/
theorem lower_unlocated (o : Options) {h : Decl.Header} (hl : ∀ l ∈ h.locations, l.OneLine) :
    Paired (fun l l₀ => l₀ = l.unlocated ∧ l.bindings.Commented LineComment) Eq
      (fun _ => ¬ ∀ l ∈ h.locations, l.Writable) (lower o h) (lower o h.unlocated) :=
  lower_beside (Or.inl rfl) fun l hmem =>
    ⟨fun _ => lineComment_of_oneLine (hl l hmem), fun hw => comment_of_writable (hw l hmem)⟩

/-- **Locations are provenance only.**  Of two headers that are the same but for their locations,
the same declarations are refused, in the same order and for the same reasons.  For any profile there
is a file for the one exactly if there is a file for the other; the two declare the same names and are
the same text once all comment lines are gone.

The one thing that a location can do is to end the lowering, if its line is a number with too many
digits to be written.  Without such lines both headers are lowered or both end with the same fault. -/
theorem locations_are_provenance (o : Options) {h h' : Decl.Header}
    (heq : h.unlocated = h'.unlocated) (hl : ∀ l ∈ h.locations, l.OneLine)
    (hl' : ∀ l ∈ h'.locations, l.OneLine) :
    (∀ l l', lower o h = .ok l → lower o h' = .ok l' →
      l.failures.map Failure.unlocated = l'.failures.map Failure.unlocated
      ∧ ∀ p, ((∃ e, emit p l.bindings = .ok e) ↔ ∃ e', emit p l'.bindings = .ok e')
        ∧ ∀ e e', emit p l.bindings = .ok e → emit p l'.bindings = .ok e' →
          withoutComments e.source.toList = withoutComments e'.source.toList
          ∧ e.declaredNames = e'.declaredNames)
    ∧ ((∀ l ∈ h.locations, l.Writable) → (∀ l ∈ h'.locations, l.Writable) →
      ∀ fault, lower o h = .error fault ↔ lower o h' = .error fault) := by
  have hbeside := lower_unlocated o hl
  have hbeside' := lower_unlocated o hl'
  rw [← heq] at hbeside'
  refine ⟨fun l l' hlow hlow' => ?_, fun hw hw' fault => ?_⟩
  · obtain ⟨_, hlow₀, rfl, hcomments⟩ := hbeside.result hlow
    obtain ⟨_, hlow₀', rfl, hcomments'⟩ := hbeside'.result hlow'
    have hsame : l.unlocated = l'.unlocated := Except.ok.inj (hlow₀.symm.trans hlow₀')
    have hbindings : l.bindings.uncommented = l'.bindings.uncommented :=
      congrArg Lowered.bindings hsame
    refine ⟨congrArg Lowered.failures hsame, fun p => ?_⟩
    have hemit := emit_beside p hcomments
    have hemit' := emit_beside p hcomments'
    rw [← hbindings] at hemit'
    refine ⟨⟨?_, ?_⟩, fun e e' he he' => ?_⟩
    · rintro ⟨e, he⟩
      obtain ⟨_, he₀, -⟩ := hemit.result he
      obtain ⟨e', he', -⟩ := hemit'.result_of_second (fun _ => id) he₀
      exact ⟨e', he'⟩
    · rintro ⟨e', he'⟩
      obtain ⟨_, he₀, -⟩ := hemit'.result he'
      obtain ⟨e, he, -⟩ := hemit.result_of_second (fun _ => id) he₀
      exact ⟨e, he⟩
    · obtain ⟨_, he₀, hsource, hnames⟩ := hemit.result he
      obtain ⟨_, he₀', hsource', hnames'⟩ := hemit'.result he'
      obtain rfl := Except.ok.inj (he₀.symm.trans he₀')
      exact ⟨hsource.trans hsource'.symm, hnames.trans hnames'.symm⟩
  · rw [hbeside.error_iff (fun _ hn => hn hw), hbeside'.error_iff (fun _ hn => hn hw')]

def pointType : Decl.TypeUse :=
  { name := "Point", nativeName := "Point", sizeOf := .int 8, alignOf := .int 4, arraySize := none
    isSystem := false }

/-- A function that is refused, and a record with another nested in it, all found at one place or
all at none. -/
def placedHeader (location : Option Decl.Location) : Decl.Header where
  functions := [⟨"stop", location, .other "StdCall", pointType, []⟩]
  functionPointers := []
  records := [⟨"Shape", location, pointType, [⟨"origin", location, pointType, .int 0, .int 0⟩],
    [⟨"Point", location, pointType, [], []⟩]⟩]
  opaquePointers := []
  opaqueTypes := []
  aliases := []
  enumerations := []

def shapesPlace : Decl.Location := ⟨"Record", "shapes.h", .int 3, "2021-02-03"⟩

def shapesProfile : Profile :=
  { libraryName := .text "shapes", className := .text "Shapes", namespaceName := .text "Native"
    usings := [], elements := primitiveElements }

theorem placedHeader_oneLine {location : Option Decl.Location}
    (h : location = some shapesPlace ∨ location = none) :
    ∀ l ∈ (placedHeader location).locations, l.OneLine := by
  rcases h with rfl | rfl
  · have hall : ∀ l ∈ (placedHeader (some shapesPlace)).locations, l = shapesPlace := by decide
    intro l hl
    rw [hall l hl]
    exact ⟨by decide, by decide, by decide⟩
  · have hnone : (placedHeader none).locations = [] := by decide
    rw [hnone]
    simp

/-- A record and the record nested in it have comments or none, and a function is refused with and
without its location. -/
theorem locations_are_provenance_shape :
    ∃ l l' e e', lower Options.default (placedHeader (some shapesPlace)) = .ok l
      ∧ lower Options.default (placedHeader none) = .ok l'
      ∧ l.failures.length = 1
      ∧ l.failures.map Failure.unlocated = l'.failures.map Failure.unlocated
      ∧ l.bindings.structs.map (·.comment) = ["// Record @ shapes.h:3 2021-02-03"]
      ∧ l'.bindings.structs.map (·.comment) = [""]
      ∧ emit shapesProfile l.bindings = .ok e ∧ emit shapesProfile l'.bindings = .ok e'
      ∧ withoutComments e.source.toList = withoutComments e'.source.toList
      ∧ e.declaredNames = e'.declaredNames := by
  have hrun : (lower Options.default (placedHeader (some shapesPlace))).toOption.map (fun l =>
      (l.failures.length, l.bindings.structs.map (·.comment),
        (emit shapesProfile l.bindings).toOption.isSome)) =
      some (1, ["// Record @ shapes.h:3 2021-02-03"], true) := by decide +kernel
  have hrun' : (lower Options.default (placedHeader none)).toOption.map (fun l =>
      (l.bindings.structs.map (·.comment), (emit shapesProfile l.bindings).toOption.isSome)) =
      some ([""], true) := by decide +kernel
  obtain ⟨l, hl, hseen⟩ := Option.map_eq_some_iff.mp hrun
  obtain ⟨l', hl', hseen'⟩ := Option.map_eq_some_iff.mp hrun'
  obtain ⟨hfailed, hseen⟩ := Prod.mk.inj hseen
  obtain ⟨hcomments, hok⟩ := Prod.mk.inj hseen
  obtain ⟨hcomments', hok'⟩ := Prod.mk.inj hseen'
  obtain ⟨e, he⟩ := Option.isSome_iff_exists.mp hok
  obtain ⟨e', he'⟩ := Option.isSome_iff_exists.mp hok'
  have hl := toOption_eq_some.mp hl
  have hl' := toOption_eq_some.mp hl'
  have he := toOption_eq_some.mp he
  have he' := toOption_eq_some.mp he'
  have hplaced : (placedHeader (some shapesPlace)).unlocated = (placedHeader none).unlocated := rfl
  obtain ⟨hsame, -⟩ := locations_are_provenance Options.default hplaced
    (placedHeader_oneLine (Or.inl rfl)) (placedHeader_oneLine (Or.inr rfl))
  obtain ⟨hfailures, hfiles⟩ := hsame l l' hl hl'
  obtain ⟨hsource, hnames⟩ := (hfiles shapesProfile).2 e e' he he'
  exact ⟨l, l', e, e', hl, hl', hfailed, hfailures, hcomments, hcomments', he, he', hsource, hnames⟩

end Interop.Source
