import Interop.Proofs.Command.Mistakes
import Interop.Proofs.Decl.Pruning
import Interop.Proofs.Generation.Effects
import Interop.Proofs.Generation.Gates
import Interop.Toml.Reader

/-!
# How the command ends

With a number of jobs that it accepts, and whatever reads TOML, the command writes the source that it
made, or logs an error and fails, or ends in an accident.  Accidents have few causes, and while the
bindings are made these are paths, the bytes of the model, numbers, the name of the boolean type and
the manifest (`program_concludes`).

This is a statement about what the program itself decides.  Links between files, files that cannot
be read or written although they are there, texts that are not made of characters, and the limits of
the machine on depth and memory are not part of it, apart from the room for a text.
-/

set_option autoImplicit false

namespace Interop

open Session

/-! ## Models -/

namespace Decl

/-- What nobody reports about the bytes of a model: they are no text, a number has too many digits,
a string is not made of characters, or the model does not fit and that cannot be put into words. -/
inductive LoadError.Unforeseen (bytes : Text.Bytes) : LoadError → Prop
  | notText {refusal : Text.Utf8.Refusal} (decode : Text.Utf8.decode bytes = .error refusal) :
      Unforeseen bytes (.notText refusal)
  | number {text : List Char} {fault : NumberFault} (decode : Text.Utf8.decode bytes = .ok text)
      (read : Json.read (Text.universalNewlines text) = .error (.number fault)) :
      Unforeseen bytes (.number fault)
  | halfPair {text : List Char} (decode : Text.Utf8.decode bytes = .ok text)
      (read : Json.read (Text.universalNewlines text) = .error .halfPair) :
      Unforeseen bytes .halfPair
  | violation {document : Value} {violation : Schema.Violation} {fault : NumberFault}
      (spells : Spells bytes document) (check : Schema.check document = some violation)
      (message : violation.message = .error fault) :
      Unforeseen bytes (.document (.invalid violation))

/-- A document describes a header, or does not fit. -/
theorem ofValue_ends (v : Value) :
    Ends (Header.ofValue v) (fun _ => True)
      fun e => ∃ violation, e = .invalid violation ∧ Schema.check v = some violation := by
  cases hcheck : Schema.check v with
  | none =>
    obtain ⟨header, hheader⟩ := exists_ofValue hcheck
    rw [hheader]
    exact Ends.ok trivial
  | some violation =>
    unfold Header.ofValue
    rw [hcheck]
    exact Ends.error ⟨violation, rfl, rfl⟩

theorem ofBytes_ends (path : List Char) (bytes : Text.Bytes) :
    Ends (Header.ofBytes path bytes) (fun _ => True)
      fun e => Generation.loadReport? e = none → e.Unforeseen bytes := by
  unfold Header.ofBytes
  split
  · rename_i refusal hdecode
    exact Ends.error fun _ => .notText hdecode
  rename_i text hdecode
  unfold Header.ofText
  split
  · rename_i v hread
    refine Ends.mapError ((ofValue_ends v).failing ?_)
    rintro _ ⟨violation, rfl, hcheck⟩ hreport
    cases hmessage : violation.message with
    | ok text =>
      rw [Generation.loadReport?, hmessage] at hreport
      cases hreport
    | error fault => exact .violation ⟨text, hdecode, hread⟩ hcheck hmessage
  · exact Ends.error nofun
  · rename_i fault hread
    exact Ends.error fun _ => .number hdecode hread
  · rename_i hread
    exact Ends.error fun _ => .halfPair hdecode hread

/-- Reading a file fails for a name that is too long alone. -/
theorem readFile?_error {files : Store} {path : List Char} {e : FileError}
    (h : files.readFile? path = .error e) : e = .nameTooLong path := by
  unfold Store.readFile? at h
  split at h
  · exact (Except.error.inj h).symm
  · cases h
  · cases h

theorem load_unforeseen {files : Store} {path : List Char} {e : LoadError}
    (h : Header.load files path = .error e) (hreport : Generation.loadReport? e = none) :
    ∃ bytes, files.Holds (Path.ofText path).toText bytes ∧ e.Unforeseen bytes := by
  unfold Header.load at h
  dsimp only at h
  cases hread : files.readFile? (Path.ofText path).toText with
  | error error =>
    rw [hread] at h
    cases h
    rw [readFile?_error hread] at hreport
    cases hreport
  | ok found =>
    rw [hread] at h
    cases found with
    | none =>
      cases h
      cases hreport
    | some bytes =>
      exact ⟨bytes, Store.readFile?_eq_some.mp hread, (ofBytes_ends _ bytes).failure h hreport⟩

end Decl

/-! ## Runs -/

namespace Generation

variable {r : Request} {config : Value} {entries inner : Value.Entries} {p : Config.Policy}
  {o : Binding.Options} {s t : Session} {files : Store}

/-- The errors about paths that nobody reports. -/
inductive PathError.Unforeseen : PathError → Prop
  | notGiven : Unforeseen .notGiven
  | emptyName (path : List Char) : Unforeseen (.emptyName path)
  | embeddedNull : Unforeseen .embeddedNull

/-- What nobody reports while the bindings are made. -/
inductive RunError.Unreported (config : Value) (files : Store) (input : List Char) :
    RunError → Prop
  | path {e : PathError} (unforeseen : e.Unforeseen) : Unreported config files input (.path e)
  | model {bytes : Text.Bytes} {e : Decl.LoadError}
      (holds : files.Holds (Path.ofText input).toText bytes) (unforeseen : e.Unforeseen bytes) :
      Unreported config files input (.load e)
  | nameless {o : Binding.Options} {fault : Fault}
      (options : Config.loweringOptions config = .ok o) (nameless : Binding.Nameless o fault) :
      Unreported config files input (.emission (.fault fault))
  | unchecked {o : Binding.Options} {header : Decl.Header} {fault : Fault}
      (options : Config.loweringOptions config = .ok o)
      (header_eq : Decl.Header.load files input = .ok header) (unchecked : Unchecked o header fault) :
      Unreported config files input (.emission (.fault fault))
  | manifest {fault : Fault} (unspellable : Json.Unspellable fault) :
      Unreported config files input (.fault fault)

/-! ### Paths -/

theorem placeOf_ends (cwd : Place) (path : List Char) :
    Ends (placeOf cwd path) (fun _ => '\x00' ∉ path) (· = .embeddedNull) := by
  unfold placeOf
  split
  · exact Ends.error rfl
  · rename_i hnull
    exact Ends.ok (by simpa using hnull)

/-- Checking paths finds a mistake, or a null character. -/
theorem checkPaths_ends (r : Request) (cwd : Place) (manifest : Option (List Char)) :
    Ends (r.checkPaths cwd manifest)
      (fun _ => '\x00' ∉ r.output ∧ ∀ path, manifest = some path → '\x00' ∉ path)
      fun e => e.isMistake = false → e.Unforeseen := by
  have hplace (path : List Char) : Ends (placeOf cwd path) (fun _ => '\x00' ∉ path)
      fun e => e.isMistake = false → e.Unforeseen := by
    refine (placeOf_ends cwd path).failing ?_
    rintro _ rfl -
    exact .embeddedNull
  unfold Request.checkPaths
  refine (hplace r.input).bind fun input _ => (hplace r.output).bind fun output houtput => ?_
  by_cases hinput : output = input
  · rw [if_pos hinput]
    show Ends (Except.error (PathError.outputOverInput r.output)) _ _
    exact Ends.error nofun
  rw [if_neg hinput]
  cases manifest with
  | none => exact Ends.ok ⟨houtput, nofun⟩
  | some path =>
    refine (hplace path).bind fun place hpath => ?_
    have hpaths : '\x00' ∉ r.output ∧ ∀ path', some path = some path' → '\x00' ∉ path' := by
      refine ⟨houtput, fun path' hpath' => ?_⟩
      cases hpath'
      exact hpath
    by_cases hmodel : place = input
    · rw [if_pos hmodel]
      show Ends (Except.error (PathError.manifestOverInput path)) _ _
      exact Ends.error nofun
    rw [if_neg hmodel]
    show Ends (if place = output then throw (PathError.manifestOverOutput path) else pure ()) _ _
    split
    · exact Ends.error nofun
    · exact Ends.ok hpaths

theorem manifestPath_ends (r : Request) (h : Config.Usable entries inner p o) :
    Ends (r.manifestPath (.table entries)) (fun _ => True) PathError.Unforeseen := by
  unfold Request.manifestPath
  split
  · exact Ends.ok trivial
  · refine Ends.of_ok (mapError_eq_ok.mpr h.found.sectionOrEmpty) (Ends.of_ok rfl ?_)
    split
    · refine Ends.bind (P := fun _ => True) ?_ fun _ _ => Ends.ok trivial
      unfold manifestBeside
      dsimp only
      split
      · exact Ends.ok trivial
      · exact Ends.error (.emptyName _)
    · exact Ends.ok trivial

/-- Preparing a run fails by mistake, or for a path or the bytes of the model. -/
theorem prepare_unreported (h : Config.Usable entries inner p o) {e : RunError}
    (hprepare : prepare r (.table entries) files = .error e) (hreport : e.report? = none) :
    e.Unreported (.table entries) files r.input := by
  have hpath {α : Type} {P : α → Prop} {x : Except PathError α}
      (hx : Ends x P fun e => e.isMistake = false → e.Unforeseen) :
      Ends (x.mapError RunError.path) P
        fun e => e.report? = none → e.Unreported (.table entries) files r.input :=
    Ends.mapError (hx.failing fun e he hreport => .path (he (eq_false_of_ite hreport)))
  suffices hends : Ends (prepare r (.table entries) files) (fun _ => True)
      fun e => e.report? = none → e.Unreported (.table entries) files r.input from
    hends.failure hprepare hreport
  unfold prepare
  refine Ends.of_ok (mapError_eq_ok.mpr h.found.sectionOrEmpty) ?_
  refine Ends.of_ok (mapError_eq_ok.mpr h.policy) ?_
  refine (hpath ((manifestPath_ends r h).failing fun e he _ => he)).bind fun manifest _ => ?_
  refine (hpath (checkPaths_ends r files.cwd manifest)).bind fun _ _ => ?_
  refine Ends.bind (P := fun _ => True) (Ends.mapError ⟨fun _ => trivial, ?_⟩)
    fun _ _ => Ends.ok trivial
  intro e hload hreport
  obtain ⟨bytes, hholds, he⟩ := Decl.load_unforeseen hload hreport
  exact .model hholds he

/-! ### Names -/

/-- A path without names leads to a directory. -/
theorem names_ne_nil {path : List Char} {bytes : Text.Bytes}
    (h : files.Holds (Path.ofText path).toText bytes) : (Path.ofText path).names ≠ [] := by
  intro hnames
  have hfollow := Store.follow_of_reaches (Store.reaches_of_locate h.locate (.found ..)).2
  unfold Path.toText at hfollow
  rw [hnames] at hfollow
  cases hanchor : (Path.ofText path).anchor with
  | here =>
    rw [hanchor] at hfollow
    cases hfollow
  | root =>
    rw [hanchor] at hfollow
    cases hfollow
  | doubleRoot =>
    rw [hanchor] at hfollow
    cases hfollow

/-- The file of a model has a name, so the library has one. -/
theorem libraryName_isTruthy {bindgen : Value} {names : Names} {bytes : Text.Bytes}
    (hholds : files.Holds r.inputText bytes) (h : settledNames r bindgen = .ok names) :
    names.libraryName.isTruthy = true := by
  have hname : (Path.ofText r.input).name ≠ [] := by
    have hnames := names_ne_nil hholds
    unfold Path.name
    rw [List.getLast?_eq_some_getLast hnames]
    exact (Path.mem_namesOf (List.getLast_mem hnames)).1
  have hstem : (slot (Path.ofText r.input).stem).isTruthy = true := by
    have hne := Path.stemOf_ne_nil hname
    show (!(String.ofList _).isEmpty) = true
    simpa [Path.stem] using hne
  unfold settledNames at h
  obtain ⟨library, -, h⟩ := bind_eq_ok.mp h
  obtain ⟨className, -, h⟩ := bind_eq_ok.mp h
  cases h
  exact orElse_isTruthy hstem library

/-! ### Whole runs -/

theorem manifestText_ends (libraryName className : Value) (declaredNames : List String) :
    Ends (manifestText libraryName className declaredNames) (fun _ => True) Json.Unspellable :=
  (Json.valueText_ends _ _ _).bind fun _ _ => Ends.ok trivial

theorem carryOut_unreported (h : Config.Usable entries inner p o) {x : Prepared}
    (hx : x.Sound r (.table entries) files) {e : RunError}
    (hcarry : carryOut r (.table entries) x s = .error e t) (hreport : e.report? = none) :
    e.Unreported (.table entries) files r.input := by
  obtain ⟨names, hnames⟩ := hx.exists_names
  cases carryOut_error hnames hcarry with
  | source generated error_eq =>
    subst error_eq
    obtain ⟨bytes, hholds⟩ := holds_of_load hx.header
    have hlibrary := libraryName_isTruthy hholds hnames
    obtain ⟨hunchecked | hnameless⟩ := (generate_ends h hlibrary x.header).failure generated
    · exact .unchecked h.options hx.header hunchecked
    · exact .nameless h.options hnameless
  | policy generated abort failed error_eq logs =>
    subst error_eq
    cases hreport
  | files made writing =>
    cases writeFiles_error writing with
    | saving file saving =>
      -- The paths have been checked, and there is no null character in them.
      have hpaths := (checkPaths_ends r files.cwd x.manifest).result hx.paths
      have hnull : '\x00' ∉ _ := file.elim (fun heq => heq ▸ hpaths.1) (hpaths.2 _)
      have herror := Store.save_failing hnull _ _ _ _ saving
      rename_i error
      cases error with
      | embeddedNull => exact absurd rfl herror
      | _ => cases hreport
    | wording wording => exact .manifest ((manifestText_ends _ _ _).failure wording)

/-- Whatever goes wrong in a run is reported, but for this. -/
theorem run_unreported (h : Config.Usable entries inner p o) {e : RunError}
    (hrun : run r (.table entries) s = .error e t) (hreport : e.report? = none) :
    e.Unreported (.table entries) s.files r.input := by
  rw [run_eq] at hrun
  rcases run_bind_eq_error.mp hrun with hprepare | ⟨x, u, hprepare, hcarry⟩
  · exact prepare_unreported h (settle_eq_error.mp hprepare).1 hreport
  · obtain ⟨hx, rfl⟩ := settle_eq_ok.mp hprepare
    exact carryOut_unreported h (prepare_eq_ok.mp hx) hcarry hreport

end Generation

/-! ## The command -/

namespace Command

variable {toml : Toml.Reader} {a : Arguments} {s t : Session}

theorem request_ends (a : Arguments) (cwd : Place) :
    Ends (request a cwd) (fun r => r.input = a.input ∧ a.output = .text r.output)
      fun e => e.isMistake = false → e.Unforeseen := by
  unfold request
  dsimp only
  split
  · refine Ends.bind (P := fun _ => True) ?_ fun _ _ => Ends.error fun _ => .notGiven
    refine (Generation.placeOf_ends cwd a.input).mono (fun _ _ => trivial) ?_
    rintro _ rfl -
    exact .embeddedNull
  · rename_i output houtput
    split
    · exact Ends.ok ⟨rfl, houtput⟩
    · exact Ends.ok ⟨rfl, houtput⟩
    · refine (Generation.checkPaths_ends _ cwd none).bind fun _ _ => ?_
      exact Ends.error fun _ => .notGiven

theorem generate_steps {config : Value} {response : Generation.Response} {u : Session}
    (h : generate a config t = .ok response u) :
    ∃ r, request a t.files.cwd = .ok r ∧ Generation.run r config t = .ok response u := by
  unfold generate at h
  obtain ⟨_, _, hget, hrequest⟩ := run_bind_eq_ok.mp h
  cases hget
  obtain ⟨r, v, hsettle, hrun⟩ := run_bind_eq_ok.mp hrequest
  obtain ⟨hr, rfl⟩ := settle_eq_ok.mp hsettle
  exact ⟨r, mapError_eq_ok.mp hr, hrun⟩

theorem generate_unreported {config : Value} (hprepare : prepare toml a s = .ok config t)
    {e : Generation.RunError} {u : Session} (h : generate a config t = .error e u)
    (hreport : e.report? = none) : e.Unreported config t.files a.input := by
  obtain ⟨entries, inner, p, o, rfl, husable⟩ := usable_of_prepare hprepare
  have hrequest := request_ends a t.files.cwd
  unfold generate at h
  rcases run_bind_eq_error.mp h with hget | ⟨_, _, hget, hrest⟩
  · cases hget
  cases hget
  rcases run_bind_eq_error.mp hrest with hsettle | ⟨r, v, hsettle, hrun⟩
  · obtain ⟨error, herror, rfl⟩ := mapError_eq_error.mp (settle_eq_error.mp hsettle).1
    exact .path (hrequest.failure herror (eq_false_of_ite hreport))
  · obtain ⟨hr, rfl⟩ := settle_eq_ok.mp hsettle
    have hinput := (hrequest.result (mapError_eq_ok.mp hr)).1
    rw [← hinput]
    exact Generation.run_unreported husable hrun hreport

/-- How the command can end. -/
inductive Concludes (toml : Toml.Reader) (a : Arguments) (s : Session) :
    EStateM.Result Accident Session Ending → Prop
  /-- The source that was made is in the output, and what it declares in the manifest, if one is
  asked for. -/
  | success {config : Value} {t u : Session} {r : Generation.Request} {x : Generation.Prepared}
      {names : Generation.Names} {lowered : Binding.Lowered} {emitted : Source.Emitted}
      {response : Generation.Response}
      (prepared : prepare toml a s = .ok config t) (generated : generate a config t = .ok response u)
      (requested : request a t.files.cwd = .ok r) (asked : a.output = .text r.output)
      (sound : x.Sound r config t.files) (made : Generation.Made r config x names lowered emitted)
      (response_eq : response = ⟨r.output, x.manifest, emitted.declaredNames, lowered.failures⟩)
      (wrote : Generation.Wrote r.output x.manifest names emitted u) :
      Concludes toml a s (.ok .success (announce response u))
  /-- The configuration will not do, and this is logged. -/
  | invalid {e : PrepareError} {t : Session} {text : List Char}
      (prepared : prepare toml a s = .error e t) (report : e.report? = some text) :
      Concludes toml a s (.ok .failure (logError "Invalid configuration: %s" text t))
  /-- The bindings cannot be made, and this is logged. -/
  | failure {config : Value} {e : Generation.RunError} {t u : Session} {text : List Char}
      (prepared : prepare toml a s = .ok config t) (generated : generate a config t = .error e u)
      (report : e.report? = some text) :
      Concludes toml a s (.ok .failure (logError "%s" text u))
  /-- An accident with the configuration. -/
  | unprepared {e : PrepareError} {t : Session} (prepared : prepare toml a s = .error e t)
      (unreported : e.Unreported) : Concludes toml a s (.error e.accident t)
  /-- An accident with the bindings. -/
  | unfinished {config : Value} {e : Generation.RunError} {t u : Session}
      (prepared : prepare toml a s = .ok config t) (generated : generate a config t = .error e u)
      (unreported : e.Unreported config t.files a.input) : Concludes toml a s (.error (.run e) u)

/-- With a number of jobs that it accepts the command does nothing but prepare the configuration and
make the bindings. -/
theorem bindgen_eq (hjobs : a.jobs = none ∨ ∃ n, a.jobs = some (some n) ∧ 1 ≤ n) :
    bindgen toml a = orReport (prepare toml a) "Invalid configuration: %s" PrepareError.report?
      PrepareError.accident fun config =>
        orReport (generate a config) "%s" Generation.RunError.report? .run
          fun response s => .ok .success (announce response s) := by
  unfold bindgen
  rcases hjobs with hnone | ⟨n, hn, hmany⟩
  · rw [hnone]
    rfl
  · rw [hn, if_neg (by simp), if_neg (by simpa using hmany)]

/-- Whatever its arguments, the environment and the files are, the command concludes. -/
theorem program_concludes (toml : Toml.Reader) {arguments : List (List Char)}
    (hread : readArguments arguments = .ok a)
    (hjobs : a.jobs = none ∨ ∃ n, a.jobs = some (some n) ∧ 1 ≤ n) (surroundings : Surroundings)
    (files : Store) :
    Concludes toml a (.start surroundings files)
      (program toml arguments (.start surroundings files)) := by
  have hready := start_logsReady surroundings files
  generalize Session.start surroundings files = s at hready ⊢
  have hprogram : program toml arguments s = bindgen toml a s := by
    unfold program
    rw [hread]
  rw [hprogram, bindgen_eq hjobs]
  unfold orReport
  cases hprepare : prepare toml a s with
  | error e t =>
    cases hreport : e.report? with
    | none =>
      simp only [hreport]
      exact .unprepared hprepare (prepare_failing toml a s e t hprepare hreport)
    | some text =>
      simp only [hreport]
      exact .invalid hprepare hreport
  | ok config t =>
    dsimp only
    cases hgenerate : generate a config t with
    | error e u =>
      cases hreport : e.report? with
      | none =>
        simp only [hreport]
        exact .unfinished hprepare hgenerate (generate_unreported hprepare hgenerate hreport)
      | some text =>
        simp only [hreport]
        exact .failure hprepare hgenerate hreport
    | ok response u =>
      obtain ⟨r, hr, hrun⟩ := generate_steps hgenerate
      obtain ⟨-, houtput⟩ := (request_ends a t.files.cwd).result hr
      obtain ⟨x, names, lowered, emitted, hsound, hmade, hresponse, hwrote, -⟩ :=
        Generation.run_wrote (prepare_logsReady hready hprepare) hrun
      exact .success hprepare hgenerate hr houtput hsound hmade hresponse hwrote

/-- A model and the file to write. -/
def shortArguments : List (List Char) :=
  ["bindgen".toList, "p.json".toList, "-o".toList, "p.cs".toList]

def shortRequest : Arguments :=
  ⟨"p.json".toList, .text "p.cs".toList, none, none, none, none, none, none, none, none, none⟩

/-- A byte that no text begins with. -/
def bareFiles : Store := ⟨[], [(["p.json".toList], .file [0xFF])]⟩

/-- Bytes that are no text are an accident when they are those of a model. -/
theorem program_concludes_bare :
    ∃ refusal u, program Toml.read shortArguments (.start .bare bareFiles)
        = .error (.run (.load (.notText refusal))) u
      ∧ Concludes Toml.read shortRequest (.start .bare bareFiles)
        (.error (.run (.load (.notText refusal))) u) := by
  have hread : readArguments shortArguments = .ok shortRequest := by decide +kernel
  have hconcludes := program_concludes Toml.read hread (.inl rfl) .bare bareFiles
  have hends : (match program Toml.read shortArguments (.start .bare bareFiles) with
      | .error (.run (.load (.notText refusal))) _ => true
      | _ => false) = true := by decide +kernel
  cases hprogram : program Toml.read shortArguments (.start .bare bareFiles) with
  | ok ending u =>
    rw [hprogram] at hends
    cases hends
  | error e u =>
    rw [hprogram] at hconcludes hends
    split at hends
    · rename_i refusal v heq
      cases heq
      exact ⟨refusal, u, rfl, hconcludes⟩
    · cases hends

end Command

end Interop
