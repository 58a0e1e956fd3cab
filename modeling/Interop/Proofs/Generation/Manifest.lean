import Interop.Proofs.Generation.Policy
import Interop.Proofs.Json.RoundTrip

/-!
# The manifest

A manifest is a line of ASCII after the other, and read as JSON it says what was put in, whatever
the names are made of (`manifest_reads_back`).

It is named after the output if the request does not name it: it stands in the same directory, and
its name goes on where the output's begins its last suffix.  What it goes on with has two dots, so
no suffix it replaces was the same; and the paths lead to two places, however the output is spelled
(`derived_manifest_apart`).  There are no links to follow in a path.
-/

set_option autoImplicit false

namespace Interop

namespace Path

/-- A path without its last name. -/
def directory (p : Path) : Path := { p with names := p.names.dropLast }

theorem name_eq_nil {t : List Char} : (ofText t).name = [] ↔ (ofText t).names = [] := by
  unfold name
  constructor
  · intro hname
    by_contra hnames
    rw [List.getLast?_eq_some_getLast hnames] at hname
    exact (mem_namesOf (List.getLast_mem hnames)).1 hname
  · intro hnames
    rw [hnames]
    rfl

/-- The last name of a path is one step from its directory. -/
theorem resolve_directory (cwd : Place) {p : Path} (h : p.names ≠ []) :
    p.resolve cwd = step (p.directory.resolve cwd) p.name := by
  have hnames : p.names = p.names.dropLast ++ [p.name] := by
    rw [name, List.getLast?_eq_some_getLast h]
    exact (List.dropLast_concat_getLast h).symm
  unfold resolve
  rw [hnames, List.foldl_append]
  rfl

/-- The last name with something in place of its last suffix. -/
theorem stemOf_append_ne (name : List Char) {suffix : List Char} (hdots : 2 ≤ suffix.count '.') :
    stemOf name ++ suffix ≠ name := by
  intro heq
  rcases stemOf_cases name with hsame | ⟨-, last, hlast, hname⟩
  · rw [hsame] at heq
    have hnil : suffix = [] := List.append_right_eq_self.mp heq
    rw [hnil] at hdots
    simp at hdots
  · have hsuffix : suffix = '.' :: last := List.append_cancel_left (heq.trans hname)
    rw [hsuffix, List.count_cons_self, List.count_eq_zero_of_not_mem hlast] at hdots
    omega

end Path

namespace Generation

open Session Interop.Path

/-- A configuration that asks for a manifest. -/
def ManifestWanted (config : Value) : Prop :=
  ∃ bindgen wanted, Config.sectionOrEmpty config "bindgen" = .ok bindgen
    ∧ Config.getOr bindgen "manifest" (.bool false) = .ok wanted ∧ wanted.isTruthy = true

/-- A manifest stands beside an output: in the same directory, under a name made from its stem, and
wherever the paths are followed from, at another place. -/
structure Beside (output manifest : List Char) : Prop where
  directory : (ofText manifest).directory = (ofText output).directory
  name : (ofText manifest).name = (ofText output).stem ++ manifestSuffix
  apart : ∀ cwd, (ofText manifest).resolve cwd ≠ (ofText output).resolve cwd

variable {r : Request} {config : Value} {output : List Char}

theorem manifestPath_of_wanted (hnone : r.manifest = none) (hwanted : ManifestWanted config) :
    r.manifestPath config = (manifestBeside r.output).map some := by
  obtain ⟨bindgen, wanted, hbindgen, hfound, htruthy⟩ := hwanted
  unfold Request.manifestPath
  rw [hnone, hbindgen]
  dsimp only [Except.mapError, ok_bind]
  rw [hfound]
  dsimp only [Except.mapError, ok_bind]
  rw [if_pos htruthy]
  cases manifestBeside r.output <;> rfl

theorem beside_of_paths {manifest : List Char} (hnames : (ofText output).names ≠ [])
    (h : ofText manifest = { ofText output with
      names := (ofText output).names.dropLast ++ [(ofText output).stem ++ manifestSuffix] }) :
    Beside output manifest := by
  have hdirectory : (ofText manifest).directory = (ofText output).directory := by
    rw [h]
    exact congrArg (Path.mk _) List.dropLast_concat
  have hname : (ofText manifest).name = (ofText output).stem ++ manifestSuffix := by
    rw [h]
    show ((_ ++ [_] : List (List Char)).getLast?).getD [] = _
    rw [List.getLast?_concat]
    rfl
  refine ⟨hdirectory, hname, fun cwd hplace => ?_⟩
  have hmanifest : (ofText manifest).names ≠ [] := by
    rw [h]
    exact List.append_ne_nil_of_right_ne_nil _ (List.cons_ne_nil _ _)
  have hlong : (ofText output).stem ++ manifestSuffix ≠ ['.', '.'] := by
    intro heq
    have hlength := congrArg List.length heq
    rw [List.length_append] at hlength
    have hsuffix : manifestSuffix.length = 14 := by decide
    simp only [List.length_cons, List.length_nil] at hlength
    omega
  rw [resolve_directory cwd hmanifest, resolve_directory cwd hnames, hdirectory, hname] at hplace
  unfold step at hplace
  rw [if_neg hlong] at hplace
  split at hplace
  · -- Double dots lead up, the manifest lies further down.
    have hlength := congrArg List.length hplace
    rw [List.length_append, List.length_dropLast] at hlength
    simp only [List.length_cons, List.length_nil] at hlength
    omega
  · have hsame := (List.append_inj' hplace rfl).2
    exact stemOf_append_ne _ (by decide) (List.cons.inj hsame).1

theorem manifestBeside_of_no_name (h : (ofText output).name = []) :
    manifestBeside output = .error (.emptyName (ofText output).toText) := by
  unfold manifestBeside withName?
  dsimp only
  rw [if_pos (name_eq_nil.mp h)]

theorem manifestBeside_ends (hne : (ofText output).name ≠ []) :
    ∃ manifest, manifestBeside output = .ok manifest ∧ Beside output manifest := by
  have hnames : (ofText output).names ≠ [] := fun hnames => hne (name_eq_nil.mpr hnames)
  let p : Path := { ofText output with
    names := (ofText output).names.dropLast ++ [(ofText output).stem ++ manifestSuffix] }
  have hp : manifestBeside output = .ok p.toText := by
    unfold manifestBeside withName?
    dsimp only
    rw [if_neg hnames]
  refine ⟨p.toText, hp, beside_of_paths hnames (ofText_toText ?_)⟩
  have hlast : (ofText output).name ∈ (ofText output).names := by
    unfold Path.name
    rw [List.getLast?_eq_some_getLast hnames]
    exact List.getLast_mem hnames
  refine List.forall_mem_append.mpr ⟨fun name hname => ?_, ?_⟩
  · exact mem_namesOf (List.dropLast_subset _ hname)
  · rw [List.forall_mem_singleton]
    refine ⟨List.append_ne_nil_of_right_ne_nil _ (by decide), ?_, ?_⟩
    · intro heq
      have hlength := congrArg List.length heq
      have hsuffix : manifestSuffix.length = 14 := by decide
      simp only [List.length_append, List.length_cons, List.length_nil] at hlength
      omega
    · intro hslash
      rcases List.mem_append.mp hslash with hslash | hslash
      · exact (mem_namesOf hlast).2.2 (mem_of_mem_stemOf hslash)
      · exact absurd hslash (by decide)

/-! ## Runs -/

variable {s t : Session} {e : RunError}

/-- A check that finds the manifest over the output has followed both to one place. -/
theorem same_place_of_manifestOverOutput {cwd : Place} {manifest : Option (List Char)}
    {path : List Char} (h : r.checkPaths cwd manifest = .error (.manifestOverOutput path)) :
    manifest = some path ∧ (ofText path).resolve cwd = (ofText r.output).resolve cwd := by
  have hplaced {t : List Char} : placeOf cwd t ≠ .error (.manifestOverOutput path) := by
    unfold placeOf
    split <;> intro h <;> cases h
  unfold Request.checkPaths at h
  rcases bind_eq_error.mp h with h | ⟨input, hinput, h⟩
  · exact absurd h hplaced
  rcases bind_eq_error.mp h with h | ⟨output, houtput, h⟩
  · exact absurd h hplaced
  obtain rfl := placeOf_eq_ok houtput
  by_cases hover : (ofText r.output).resolve cwd = input
  · rw [if_pos hover] at h
    cases h
  rw [if_neg hover] at h
  cases manifest with
  | none => cases h
  | some path' =>
    rcases bind_eq_error.mp h with h | ⟨place, hplace, h⟩
    · exact absurd h hplaced
    obtain rfl := placeOf_eq_ok hplace
    by_cases hin : (ofText path').resolve cwd = input
    · rw [if_pos hin] at h
      cases h
    rw [if_neg hin] at h
    by_cases hout : (ofText path').resolve cwd = (ofText r.output).resolve cwd
    · rw [if_pos hout] at h
      cases h
      exact ⟨rfl, hout⟩
    · rw [if_neg hout] at h
      cases h

/-- Only the checks of the paths fail over a path. -/
theorem prepare_error_of_path {error : PathError} (h : run r config s = .error (.path error) t) :
    prepare r config s.files = .error (.path error) := by
  rw [run_eq] at h
  rcases run_bind_eq_error.mp h with hsettle | ⟨x, u, hsettle, hcarry⟩
  · exact (settle_eq_error.mp hsettle).1
  obtain ⟨hprepare, rfl⟩ := settle_eq_ok.mp hsettle
  obtain ⟨names, hnames⟩ := (prepare_eq_ok.mp hprepare).exists_names
  cases carryOut_error hnames hcarry with
  | source _ error_eq => cases error_eq
  | policy _ _ _ error_eq => cases error_eq
  | files _ writing => cases writeFiles_error writing

/-- A path error comes from finding the manifest or from comparing the paths. -/
theorem path_error {files : Store} {error : PathError}
    (h : prepare r config files = .error (.path error)) :
    r.manifestPath config = .error error
      ∨ ∃ manifest, r.manifestPath config = .ok manifest
        ∧ r.checkPaths files.cwd manifest = .error error := by
  have hother {α ε : Type} {x : Except ε α} {f : ε → RunError} (hf : ∀ a, f a ≠ .path error) :
      x.mapError f ≠ .error (.path error) := by
    intro h
    obtain ⟨a, -, ha⟩ := mapError_eq_error.mp h
    exact hf a ha.symm
  unfold prepare at h
  rcases bind_eq_error.mp h with h | ⟨bindgen, -, h⟩
  · exact absurd h (hother nofun)
  rcases bind_eq_error.mp h with h | ⟨policy, -, h⟩
  · exact absurd h (hother nofun)
  rcases bind_eq_error.mp h with h | ⟨manifest, hmanifest, h⟩
  · obtain ⟨_, hfound, heq⟩ := mapError_eq_error.mp h
    cases heq
    exact .inl hfound
  rcases bind_eq_error.mp h with h | ⟨_, -, h⟩
  · obtain ⟨_, hchecked, heq⟩ := mapError_eq_error.mp h
    cases heq
    exact .inr ⟨manifest, mapError_eq_ok.mp hmanifest, hchecked⟩
  rcases bind_eq_error.mp h with h | ⟨header, -, h⟩
  · exact absurd h (hother nofun)
  · cases h

/-- A manifest that only the configuration asks for.  There is none exactly if the output has no
name; otherwise it stands beside the output, and no run finds it to be the output. -/
theorem derived_manifest_apart (hnone : r.manifest = none) (hwanted : ManifestWanted config) :
    ((ofText r.output).name = [] ↔
        r.manifestPath config = .error (.emptyName (ofText r.output).toText))
    ∧ ((ofText r.output).name ≠ [] →
        ∃ manifest, r.manifestPath config = .ok (some manifest) ∧ Beside r.output manifest)
    ∧ ∀ s t path, run r config s ≠ .error (.path (.manifestOverOutput path)) t := by
  have hfound := manifestPath_of_wanted hnone hwanted
  have hbeside (hne : (ofText r.output).name ≠ []) :
      ∃ manifest, r.manifestPath config = .ok (some manifest) ∧ Beside r.output manifest := by
    obtain ⟨manifest, hmanifest, h⟩ := manifestBeside_ends hne
    rw [hfound, hmanifest]
    exact ⟨manifest, rfl, h⟩
  have hempty (hname : (ofText r.output).name = []) :
      r.manifestPath config = .error (.emptyName (ofText r.output).toText) := by
    rw [hfound, manifestBeside_of_no_name hname]
    rfl
  refine ⟨⟨hempty, fun herror => ?_⟩, hbeside, ?_⟩
  · by_contra hne
    obtain ⟨manifest, hmanifest, -⟩ := hbeside hne
    rw [hmanifest] at herror
    cases herror
  · intro s t path h
    by_cases hname : (ofText r.output).name = []
    · rcases path_error (prepare_error_of_path h) with h | ⟨manifest, h, -⟩ <;>
        rw [hempty hname] at h <;> cases h
    obtain ⟨manifest, hmanifest, beside⟩ := hbeside hname
    rcases path_error (prepare_error_of_path h) with h | ⟨manifest', h, hchecked⟩
    · rw [hmanifest] at h
      cases h
    -- Such a manifest would lead to the place of the output, from which it is apart.
    · rw [hmanifest] at h
      cases h
      obtain ⟨hpath, hplace⟩ := same_place_of_manifestOverOutput hchecked
      cases hpath
      exact beside.apart _ hplace

/-- A request whose output ends in double dots. -/
def upwardRequest : Request := ⟨"p.json".toList, "gen//..".toList, ⟨.null, .null, .null⟩, none⟩

theorem derived_manifest_apart_upward :
    upwardRequest.manifestPath (checkedConfig "abort")
        = .ok (some "gen/...manifest.json".toList)
      ∧ Beside "gen//..".toList "gen/...manifest.json".toList := by
  have hwanted : ManifestWanted (checkedConfig "abort") :=
    ⟨_, .bool true, rfl, rfl, rfl⟩
  obtain ⟨-, hbeside, -⟩ := derived_manifest_apart (r := upwardRequest) rfl hwanted
  obtain ⟨manifest, hmanifest, beside⟩ := hbeside (by decide)
  have hfound : upwardRequest.manifestPath (checkedConfig "abort")
      = .ok (some "gen/...manifest.json".toList) := by
    decide
  obtain rfl : manifest = "gen/...manifest.json".toList :=
    Option.some.inj (Except.ok.inj (hmanifest.symm.trans hfound))
  exact ⟨hmanifest, beside⟩

/-! ## What a manifest says -/

theorem manifestValue_verbal (library className : String) (names : List String) :
    Json.Verbal (manifestValue (.text library) (.text className) names) := by
  have hnames : Json.Verbal (.list (names.map .text)) := by
    refine .list fun v hv => ?_
    obtain ⟨name, -, rfl⟩ := List.mem_map.mp hv
    exact .text name
  refine .table (by simp) ?_
  rw [List.forall_mem_cons, List.forall_mem_cons, List.forall_mem_singleton]
  exact ⟨.text library, .text className, hnames⟩

/-- A manifest of any names at all reads back: its text is ASCII and ends in exactly one newline,
and as JSON it is a table of the library, the class and the declarations in their order. -/
theorem manifest_reads_back (library className : String) (names : List String) :
    ∃ body, manifestText (.text library) (.text className) names = .ok (body ++ ['\n'])
      ∧ body.getLast? = some '\x7d'
      ∧ (∀ c ∈ body ++ ['\n'], c.toNat < 0x80)
      ∧ Json.read (body ++ ['\n']) = .ok (.table
          [("library", .text library), ("class", .text className),
            ("declarations", .list (names.map .text))]) := by
  obtain ⟨body, hbody, hspells⟩ :=
    (manifestValue_verbal library className names).spells ⟨true, true⟩ 0
  refine ⟨body, ?_, Json.getLast?_of_table hbody, ?_,
    hspells.read_append (Json.gap_newline 0)⟩
  · unfold manifestText Json.write
    rw [hbody]
    rfl
  · exact List.forall_mem_append.mpr ⟨hspells.ascii rfl, List.forall_mem_singleton.mpr (by decide)⟩

end Generation

end Interop
