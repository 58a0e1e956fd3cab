import Interop.Proofs.Source.Standing

/-!
# The lines of a generated file

A file is a head, a class header, the members and closing braces.  Read line by line it is these in
a row (`emit_lines`): the lines of each member are those of its own text, moved to the right.  The
strings of the bindings and of the generator only need to have no line breaks (`shown`,
`Generator.SingleLine`).
-/

set_option autoImplicit false

namespace Interop.Source

open Binding Text

/-! ## Generators -/

/-- What a generator is made from, all names being texts. -/
structure Generator where
  libraryName : String
  className : Option String
  namespaceName : Option String
  usings : List String
  elements : ElementTable
deriving Repr

namespace Generator

/-- A name that may be missing. -/
def optional : Option String → Value
  | none => .null
  | some s => .text s

/-- The profile of the files of a generator; a generator without a library name has none. -/
def profile (g : Generator) : Except EmissionError Profile :=
  Profile.make (.text g.libraryName) (optional g.className) (optional g.namespaceName)
    (.list (g.usings.map .text)) g.elements

/-- The class takes the name of the library if it has none of its own. -/
def classTitle (g : Generator) : String :=
  match g.className with
  | some s => if s.isEmpty then g.libraryName else s
  | none => g.libraryName

/-- The namespace, if there is one; an empty name is none. -/
def namespaceTitle (g : Generator) : Option String := g.namespaceName.filter (!·.isEmpty)

/-- What holds of every name that a generator is made from. -/
structure All (P : String → Prop) (g : Generator) : Prop where
  libraryName : P g.libraryName
  className : ∀ s, g.className = some s → P s
  namespaceName : ∀ s, g.namespaceName = some s → P s
  usings : ∀ s ∈ g.usings, P s

theorem All.mono {P Q : String → Prop} {g : Generator} (h : g.All P) (i : ∀ s, P s → Q s) :
    g.All Q where
  libraryName := i _ h.libraryName
  className s hs := i _ (h.className s hs)
  namespaceName s hs := i _ (h.namespaceName s hs)
  usings s hs := i _ (h.usings s hs)

theorem All.classTitle {P : String → Prop} {g : Generator} (h : g.All P) : P g.classTitle := by
  rw [Generator.classTitle]
  split
  · split
    · exact h.libraryName
    · exact h.className _ ‹_›
  · exact h.libraryName

theorem All.namespaceTitle {P : String → Prop} {g : Generator} (h : g.All P) {s : String}
    (hs : g.namespaceTitle = some s) : P s :=
  h.namespaceName s (Option.filter_eq_some_iff.mp hs).1

theorem orElse_optional (s : Option String) (alternative : Value) :
    orElse (optional s) alternative =
      match s.filter (!·.isEmpty) with
      | some t => .text t
      | none => alternative := by
  cases s with
  | none => rfl
  | some s =>
    cases hs : s.isEmpty with
    | true => simp [orElse, optional, Value.isTruthy, Option.filter, hs]
    | false => simp [orElse, optional, Value.isTruthy, Option.filter, hs]

/-- The profile of a generator with a name for its library: what it was made from, with the names
that count. -/
theorem profile_eq {g : Generator} (h : g.libraryName ≠ "") :
    g.profile = .ok
      { libraryName := .text g.libraryName, className := .text g.classTitle
        namespaceName := optional g.namespaceTitle, usings := g.usings.map .text
        elements := g.elements } := by
  have hlibrary : (Value.text g.libraryName).isTruthy = true := by
    simpa [Value.isTruthy] using h
  have hclass : orElse (optional g.className) (.text g.libraryName) = .text g.classTitle := by
    rw [orElse_optional, classTitle]
    cases g.className with
    | none => rfl
    | some s => cases hs : s.isEmpty <;> simp [Option.filter, hs]
  have hnamespace : orElse (optional g.namespaceName) .null = optional g.namespaceTitle := by
    rw [orElse_optional, namespaceTitle]
    cases g.namespaceName.filter (!·.isEmpty) <;> rfl
  rw [profile, Profile.make, hlibrary, hclass, hnamespace]
  rfl

theorem libraryName_ne_empty {g : Generator} {p : Profile} (h : g.profile = .ok p) :
    g.libraryName ≠ "" := by
  intro he
  rw [profile, Profile.make, he] at h
  exact absurd h (by simp [Value.isTruthy, throw, throwThe, MonadExceptOf.throw])

end Generator

/-! ## Members -/

/-- The text of one declaration, taken alone. -/
def memberText (elements : ElementTable) : Member → Except EmissionError (List Char)
  | .function f => functionText f
  | .functionPointer p => functionPointerText elements p
  | .struct s => Struct.text elements s
  | .opaqueStruct s => .ok (opaqueText s)
  | .enumeration e => enumText e

theorem mapM_ok {α β ε : Type} (f : α → β) (xs : List α) :
    xs.mapM (fun x => (Except.ok (f x) : Except ε β)) = .ok (xs.map f) := by
  induction xs with
  | nil => rfl
  | cons x xs ih => rw [List.mapM_cons, ih]; rfl

theorem memberTexts_eq (elements : ElementTable) (b : Bindings) :
    memberTexts elements b = b.members.mapM (memberText elements) := by
  have hopaque : b.opaqueStructs.mapM (memberText elements ∘ Member.opaqueStruct) =
      .ok (b.opaqueStructs.map opaqueText) := mapM_ok opaqueText b.opaqueStructs
  have hcomp : memberText elements ∘ Member.struct = Struct.text elements := rfl
  simp only [memberTexts, Bindings.members, List.mapM_append, List.mapM_map, nestedTexts_eq,
    hopaque, bind_assoc, pure_bind, ok_bind]
  rfl

theorem memberText_standing {elements : ElementTable} (hk : SingleLineKeywords elements)
    {m : Member} (h : m.Meets shown) :
    Ends (memberText elements m) Standing fun _ => True := by
  cases m with
  | function f => exact functionText_standing h
  | functionPointer p => exact functionPointerText_standing hk h
  | struct s => exact Struct.text_standing hk h
  | opaqueStruct s => exact Ends.ok (opaqueText_standing h)
  | enumeration e => exact enumText_standing h

theorem memberTexts_standing {elements : ElementTable} (hk : SingleLineKeywords elements)
    {b : Bindings} (h : b.Meets shown) :
    Ends (b.members.mapM (memberText elements)) (fun ts => ∀ t ∈ ts, Standing t) fun _ => True :=
  (Ends.mapM fun _ hm => memberText_standing hk (h.member hm)).mono
    (fun _ hts => forall_of_forall₂ hts fun _ _ ht => ht) fun _ _ => trivial

/-! ## Lines -/

/-- The lines of members one below the other, with an empty line between each two. -/
def memberLines : List (List Char) → List (List Char)
  | [] => []
  | t :: ts => trimmedLines t ++ ts.flatMap fun x => [] :: trimmedLines x

namespace Generator

/-- The lines above the class, and above its namespace if there is one. -/
def head (g : Generator) : List (List Char) :=
  banner g.libraryName.toList
    ++ [[], "#nullable enable".toList, "#pragma warning disable 1591".toList, []]
    ++ g.usings.map (fun s => "using ".toList ++ s.toList ++ [';'])
    ++ [[]]

def classTitleLine (g : Generator) : List Char :=
  "public static unsafe partial class ".toList ++ g.classTitle.toList

def libraryNameLine (g : Generator) : List Char :=
  "    private const string LibraryName = \"".toList ++ g.libraryName.toList ++ "\";".toList

/-- The lines of the class above its members. -/
def classHead (g : Generator) : List (List Char) :=
  [g.classTitleLine, ['\x7b'], g.libraryNameLine]

/-- The lines that open a namespace. -/
def namespaceHead (name : String) : List (List Char) :=
  ["namespace ".toList ++ name.toList, ['\x7b']]

/-- The lines of the class around the lines of its members. -/
def classLines (g : Generator) (members : List (List Char)) : List (List Char) :=
  g.classHead.map trimLine ++ [] :: members.map (shiftLine 4) ++ [['\x7d']]

/-- The lines of the class, inside the namespace if there is one. -/
def bodyLines (g : Generator) (members : List (List Char)) : List (List Char) :=
  match g.namespaceTitle with
  | none => g.classLines members
  | some name =>
    (namespaceHead name).map trimLine ++ (g.classLines members).map (shiftLine 4) ++ [['\x7d']]

/-- The lines of the file around the lines of its members, before empty lines are settled. -/
def lines (g : Generator) (members : List (List Char)) : List (List Char) :=
  g.head.map trimLine ++ g.bodyLines members ++ [[]]

end Generator

section Lines

variable {g : Generator}

theorem trimmedLines_cons {line rest : List Char} (hl : SingleLine line)
    (hr : NewlinesOnly rest) :
    trimmedLines (line ++ '\n' :: rest) = trimLine line :: trimmedLines rest := by
  rw [trimmedLines_append hl.newlinesOnly hr, trimmedLines_singleLine hl]
  rfl

/-- What the members of a class put into it. -/
theorem trimmedLines_body {texts : List (List Char)} (h : ∀ t ∈ texts, Standing t) :
    trimmedLines ((if (joinMembers texts).isEmpty then [] else indent (joinMembers texts) ++ ['\n'])
        ++ ['\x7d']) = (memberLines texts).map (shiftLine 4) ++ [['\x7d']]
      ∧ NewlinesOnly ((if (joinMembers texts).isEmpty then []
          else indent (joinMembers texts) ++ ['\n']) ++ ['\x7d']) := by
  cases texts with
  | nil => exact ⟨rfl, by decide⟩
  | cons t ts =>
    obtain ⟨hlines, hbreaks⟩ := trimmedLines_joinMembers h
    obtain ⟨hindent, hindentBreaks⟩ := trimmedLines_indent hbreaks
    have hne : (joinMembers (t :: ts)).isEmpty = false := by
      have ht := (h t List.mem_cons_self).ne_nil
      rw [joinMembers_of_standing h]
      cases t with
      | nil => exact absurd rfl ht
      | cons c t => cases ts <;> rfl
    rw [hne, if_neg (by simp), List.append_assoc]
    show trimmedLines (indent (joinMembers (t :: ts)) ++ '\n' :: ['\x7d']) = _ ∧ _
    rw [trimmedLines_append hindentBreaks (by decide), hindent, hlines]
    exact ⟨rfl, newlinesOnly_append.mpr ⟨hindentBreaks, by decide⟩⟩

theorem classText_lines (hg : g.All fun s => SingleLine s.toList) {p : Profile}
    (hp : g.profile = .ok p) {texts : List (List Char)} (h : ∀ t ∈ texts, Standing t) :
    ∃ text, classText p texts = .ok text ∧ trimmedLines text = g.classLines (memberLines texts)
      ∧ NewlinesOnly text := by
  obtain rfl := Except.ok.inj (hp.symm.trans (g.profile_eq (Generator.libraryName_ne_empty hp)))
  obtain ⟨hbody, hbreaks⟩ := trimmedLines_body h
  generalize hb : (if (joinMembers texts).isEmpty then []
    else indent (joinMembers texts) ++ ['\n']) ++ ['\x7d'] = body at hbody hbreaks
  have htitle : SingleLine g.classTitleLine := singleLine_append.mpr ⟨by decide, hg.classTitle⟩
  have hlibrary : SingleLine g.libraryNameLine := by
    unfold Generator.libraryNameLine
    rw [singleLine_append, singleLine_append]
    exact ⟨⟨by decide, hg.libraryName⟩, by decide⟩
  have hbrace : SingleLine ['\x7b'] := by decide
  have hgap : NewlinesOnly ([] ++ '\n' :: body) := by simpa using hbreaks
  have hbelowBrace : NewlinesOnly (g.libraryNameLine ++ '\n' :: ([] ++ '\n' :: body)) :=
    newlinesOnly_append.mpr ⟨hlibrary.newlinesOnly, newlinesOnly_newline.mpr hgap⟩
  have hbelowTitle : NewlinesOnly
      (['\x7b'] ++ '\n' :: (g.libraryNameLine ++ '\n' :: ([] ++ '\n' :: body))) :=
    newlinesOnly_append.mpr ⟨hbrace.newlinesOnly, newlinesOnly_newline.mpr hbelowBrace⟩
  refine ⟨g.classTitleLine ++ '\n' :: (['\x7b'] ++ '\n' :: (g.libraryNameLine
    ++ '\n' :: ([] ++ '\n' :: body))), ?_, ?_, ?_⟩
  · rw [← hb]
    refine congrArg Except.ok ?_
    unfold Generator.classTitleLine Generator.libraryNameLine
    simp only [List.append_assoc]
    rfl
  · rw [trimmedLines_cons htitle hbelowTitle, trimmedLines_cons hbrace hbelowBrace,
      trimmedLines_cons hlibrary hgap, trimmedLines_cons (by decide) hbreaks, hbody]
    rfl
  · exact newlinesOnly_append.mpr ⟨htitle.newlinesOnly, newlinesOnly_newline.mpr hbelowTitle⟩

theorem trimmedLines_terminate {lines : List (List Char)} (hl : ∀ line ∈ lines, SingleLine line)
    {rest : List Char} (hr : NewlinesOnly rest) :
    trimmedLines (terminate lines ++ rest) = lines.map trimLine ++ trimmedLines rest
      ∧ NewlinesOnly (terminate lines ++ rest) := by
  induction lines with
  | nil => exact ⟨rfl, hr⟩
  | cons line lines ih =>
    obtain ⟨hlines, hbreaks⟩ := ih fun l h => hl l (List.mem_cons_of_mem _ h)
    have hline := hl line List.mem_cons_self
    have hsplit : terminate (line :: lines) ++ rest = line ++ '\n' :: (terminate lines ++ rest) := by
      simp [terminate]
    rw [hsplit, trimmedLines_cons hline hbreaks, hlines]
    exact ⟨rfl, newlinesOnly_append.mpr ⟨hline.newlinesOnly, newlinesOnly_newline.mpr hbreaks⟩⟩

theorem singleLine_banner {name : List Char} (h : SingleLine name) :
    ∀ line ∈ banner name, SingleLine line := by
  intro line hl
  unfold banner at hl
  simp only [List.mem_cons, List.not_mem_nil, or_false] at hl
  rcases hl with rfl | rfl | rfl | rfl | rfl | rfl | rfl | rfl
  case inr.inr.inl =>
    rw [singleLine_append, singleLine_append]
    exact ⟨⟨by decide, h⟩, by decide⟩
  all_goals decide

theorem singleLine_head (hg : g.All fun s => SingleLine s.toList) :
    ∀ line ∈ g.head, SingleLine line := by
  intro line hl
  simp only [Generator.head, List.mem_append, List.mem_map] at hl
  rcases hl with ((hl | hl) | ⟨s, hs, rfl⟩) | hl
  · exact singleLine_banner hg.libraryName line hl
  · exact (by decide : ∀ l ∈ [[], "#nullable enable".toList, "#pragma warning disable 1591".toList,
      []], SingleLine l) line hl
  · rw [singleLine_append, singleLine_append]
    exact ⟨⟨by decide, hg.usings s hs⟩, by decide⟩
  · rw [List.mem_singleton.mp hl]
    exact fun _ h => absurd h (by simp)

theorem terminate_head (g : Generator) :
    terminate g.head = joinLines (banner g.libraryName.toList)
      ++ "\n\n#nullable enable\n#pragma warning disable 1591\n\n".toList
      ++ (g.usings.map fun s => "using ".toList ++ s.toList ++ ";\n".toList).flatten ++ ['\n'] := by
  have husings : terminate (g.usings.map fun s => "using ".toList ++ s.toList ++ [';']) =
      (g.usings.map fun s => "using ".toList ++ s.toList ++ ";\n".toList).flatten := by
    rw [terminate, List.flatMap_map, List.flatMap_def]
    refine congrArg List.flatten (List.map_congr_left fun s _ => ?_)
    rw [List.append_assoc, List.append_assoc]
    rfl
  have hbanner : joinLines (banner g.libraryName.toList)
      ++ "\n\n#nullable enable\n#pragma warning disable 1591\n\n".toList =
      terminate (banner g.libraryName.toList)
        ++ "\n#nullable enable\n#pragma warning disable 1591\n\n".toList :=
    joinLines_append_newline (List.cons_ne_nil _ _) _
  rw [hbanner, ← husings]
  unfold Generator.head terminate
  simp only [List.flatMap_append]
  rfl

/-- The file around the text of its class. -/
theorem fileText_eq {p : Profile} (hp : g.profile = .ok p) (cls : List Char) :
    fileText p cls = .ok (match g.namespaceTitle with
      | none => terminate g.head ++ (cls ++ ['\n'])
      | some name =>
        terminate (g.head ++ Generator.namespaceHead name) ++ (indent cls ++ "\n\x7d\n".toList)) := by
  obtain rfl := Except.ok.inj (hp.symm.trans (g.profile_eq (Generator.libraryName_ne_empty hp)))
  have husings : (g.usings.map Value.text).mapM usingLine =
      .ok (g.usings.map fun s => "using ".toList ++ s.toList ++ ";\n".toList) := by
    rw [List.mapM_map]
    exact mapM_ok _ _
  have htext : fileText
      { libraryName := .text g.libraryName, className := .text g.classTitle
        namespaceName := Generator.optional g.namespaceTitle, usings := g.usings.map .text
        elements := g.elements } cls =
      if (Generator.optional g.namespaceTitle).isTruthy then do
        return terminate g.head ++ "namespace ".toList
          ++ (← faulty (Generator.optional g.namespaceTitle).shown) ++ "\n\x7b\n".toList ++ indent cls
          ++ "\n\x7d\n".toList
      else .ok (terminate g.head ++ cls ++ ['\n']) := by
    unfold fileText
    rw [husings, terminate_head g]
    rfl
  rw [htext]
  cases htitle : g.namespaceTitle with
  | none => exact congrArg Except.ok (List.append_assoc _ _ _)
  | some name =>
    have htruthy : (Generator.optional (some name)).isTruthy = true :=
      (Option.filter_eq_some_iff.mp htitle).2
    have hnamespace : terminate (Generator.namespaceHead name) =
        "namespace ".toList ++ name.toList ++ "\n\x7b\n".toList := by
      unfold Generator.namespaceHead terminate
      simp only [List.flatMap_cons, List.flatMap_nil, List.append_assoc]
      rfl
    rw [if_pos htruthy]
    refine congrArg Except.ok ?_
    dsimp only
    rw [terminate_append, hnamespace]
    simp only [List.append_assoc]

theorem fileText_lines (hg : g.All fun s => SingleLine s.toList) {p : Profile}
    (hp : g.profile = .ok p) {cls : List Char} {members : List (List Char)}
    (hc : trimmedLines cls = g.classLines members) (hn : NewlinesOnly cls) :
    ∃ text, fileText p cls = .ok text ∧ trimmedLines text = g.lines members := by
  rw [fileText_eq hp, Generator.lines, Generator.bodyLines]
  refine ⟨_, rfl, ?_⟩
  cases htitle : g.namespaceTitle with
  | none =>
    have hbelow : NewlinesOnly (cls ++ '\n' :: []) :=
      newlinesOnly_append.mpr ⟨hn, newlinesOnly_newline.mpr NewlinesOnly.nil⟩
    dsimp only
    rw [(trimmedLines_terminate (singleLine_head hg) hbelow).1,
      trimmedLines_append hn NewlinesOnly.nil, hc, ← List.append_assoc]
    rfl
  | some name =>
    obtain ⟨hindent, hbreaks⟩ := trimmedLines_indent hn
    have hname : SingleLine ("namespace ".toList ++ name.toList) :=
      singleLine_append.mpr ⟨by decide, hg.namespaceTitle htitle⟩
    have hhead : ∀ line ∈ g.head ++ Generator.namespaceHead name, SingleLine line := by
      refine List.forall_mem_append.mpr ⟨singleLine_head hg, ?_⟩
      exact List.forall_mem_cons.mpr ⟨hname, by decide⟩
    have hend : NewlinesOnly (['\x7d'] ++ '\n' :: []) := by decide
    have hclass : NewlinesOnly (indent cls ++ '\n' :: (['\x7d'] ++ '\n' :: [])) :=
      newlinesOnly_append.mpr ⟨hbreaks, newlinesOnly_newline.mpr hend⟩
    show trimmedLines (terminate (g.head ++ Generator.namespaceHead name)
      ++ (indent cls ++ '\n' :: (['\x7d'] ++ '\n' :: []))) = _
    rw [(trimmedLines_terminate hhead hclass).1, trimmedLines_append hbreaks hend,
      trimmedLines_cons (by decide) NewlinesOnly.nil, hindent, hc, List.map_append]
    simp only [List.append_assoc]
    rfl

theorem elements_eq {p : Profile} (hp : g.profile = .ok p) : p.elements = g.elements := by
  obtain rfl := Except.ok.inj (hp.symm.trans (g.profile_eq (Generator.libraryName_ne_empty hp)))
  rfl

/-- Without the text of some member there is no file. -/
theorem emit_error {p : Profile} (hp : g.profile = .ok p) {b : Bindings} {e : EmissionError}
    (h : b.members.mapM (memberText g.elements) = .error e) : emit p b = .error e := by
  unfold emit
  rw [memberTexts_eq, elements_eq hp, h]
  rfl

/-- **A file is read line by line.**  With the texts of all members there is a file.  Its lines are
those around the members and those of the members, with empty lines settled. -/
theorem emit_lines (hg : g.All fun s => SingleLine s.toList) {p : Profile} (hp : g.profile = .ok p)
    {b : Bindings} {texts : List (List Char)}
    (ht : b.members.mapM (memberText g.elements) = .ok texts) (hs : ∀ t ∈ texts, Standing t) :
    ∃ text, emit p b =
        .ok { source := String.ofList (tidy text), declaredNames := b.members.map Member.name }
      ∧ trimmedLines text = g.lines (memberLines texts) := by
  obtain ⟨cls, hcls, hlines, hbreaks⟩ := classText_lines hg hp hs
  obtain ⟨text, htext, htrimmed⟩ := fileText_lines hg hp hlines hbreaks
  refine ⟨text, ?_, htrimmed⟩
  unfold emit
  rw [memberTexts_eq, elements_eq hp, Bindings.names_eq, ht, ok_bind, hcls, ok_bind, htext, ok_bind]
  rfl

end Lines

end Interop.Source
