import Interop.Proofs.Config.Policy
import Interop.Proofs.Decl.Pruning
import Interop.Proofs.Generation.Effects
import Interop.Proofs.Generation.Policy

/-!
# Skipping is deleting

A run that skips what cannot be bound does what a run does whose model never had it
(`skipping_is_deleting`).  The two runs are followed side by side: the second reads another model and
may have another policy, settles the same names, makes the same bindings and the same source, and
writes its files wherever the first could write them.
-/

set_option autoImplicit false

namespace Interop.Generation

open Session

variable {r : Request} {config config' : Value} {inner inner' : Value.Entries} {x : Prepared}
  {names : Names} {lowered : Binding.Lowered} {emitted : Source.Emitted} {s t : Session}

/-! ## Another policy -/

section OtherPolicy

variable (hsame : Config.SameApart config config' inner inner')

include hsame

theorem nameOr_of_sameApart (given : Value) {key : String} (hkey : key ≠ "on_error") :
    nameOr given (.table inner') key = nameOr given (.table inner) key := by
  unfold nameOr
  rw [hsame.getOr hkey]

theorem settledNames_of_sameApart (r : Request) :
    settledNames r (.table inner') = settledNames r (.table inner) := by
  unfold settledNames
  rw [nameOr_of_sameApart hsame _ (by decide), nameOr_of_sameApart hsame _ (by decide)]

theorem manifestPath_of_sameApart (r : Request) :
    r.manifestPath config' = r.manifestPath config := by
  have hwanted := hsame.getOr (show "manifest" ≠ "on_error" by decide) (.bool false)
  unfold Request.manifestPath
  rw [hsame.left.sectionOrEmpty, hsame.right.sectionOrEmpty]
  cases r.manifest with
  | some path => rfl
  | none => simp only [Except.mapError, ok_bind, hwanted]

theorem profile_of_sameApart (names : Names) (elements : Binding.ElementTable) :
    profile names (.table inner') elements = profile names (.table inner) elements := by
  unfold profile
  rw [nameOr_of_sameApart hsame _ (by decide), nameOr_of_sameApart hsame _ (by decide),
    hsame.getOr (by decide)]

/-- The source depends on what was bound, and not on what was not. -/
theorem generate_bindable {o : Binding.Options} (hoptions : Config.loweringOptions config = .ok o)
    {header : Decl.Header} (h : generate config names header = .ok (lowered, emitted)) :
    generate config' names (Binding.restrict (fun d => !d.fails o) header)
      = .ok (⟨lowered.bindings, []⟩, emitted) := by
  obtain ⟨bindgen, o', p, hgenerates⟩ := generate_eq_ok.mp h
  have hbindgen := hgenerates.bindgen_eq
  rw [hsame.left.sectionOrEmpty] at hbindgen
  cases hbindgen
  cases hoptions.symm.trans hgenerates.options_eq
  refine generate_eq_ok.mpr ⟨.table inner', o, p, hsame.right.sectionOrEmpty, ?_, ?_, ?_, ?_⟩
  · rw [hsame.loweringOptions]
    exact hoptions
  · exact Binding.lower_bindable hgenerates.lowered_eq
  · rw [profile_of_sameApart hsame]
    exact hgenerates.profile_eq
  · exact hgenerates.emitted_eq

end OtherPolicy

/-! ## The second run -/

/-- What has been prepared and made for a run can be prepared and made for one under another policy,
and with a model of what could be bound. -/
theorem exists_made_bindable (hsame : Config.SameApart config config' inner inner')
    {p : Config.Policy} (hpolicy : Config.policy config' = .ok p) {o : Binding.Options}
    (hoptions : Config.loweringOptions config = .ok o) (hx : x.Sound r config s.files)
    (hmade : Made r config x names lowered emitted) {s' : Session}
    (hcwd : s'.files.cwd = s.files.cwd)
    (hload : Decl.Header.load s'.files r.input
      = .ok (Binding.restrict (fun d => !d.fails o) x.header)) :
    ∃ x', x'.Sound r config' s'.files ∧ x'.manifest = x.manifest
      ∧ Made r config' x' names ⟨lowered.bindings, []⟩ emitted := by
  have hbindgen : x.bindgen = .table inner :=
    Except.ok.inj (hx.bindgen.symm.trans hsame.left.sectionOrEmpty)
  have hsettled := hmade.settled
  rw [hbindgen, ← settledNames_of_sameApart hsame] at hsettled
  refine ⟨⟨.table inner', p, x.manifest, Binding.restrict (fun d => !d.fails o) x.header⟩, ?_, rfl,
    hsettled, generate_bindable hsame hoptions hmade.generated, .inl rfl⟩
  refine ⟨hsame.right.sectionOrEmpty, hpolicy, ?_, ?_, hload⟩
  · rw [manifestPath_of_sameApart hsame]
    exact hx.manifest
  · rw [hcwd]
    exact hx.paths

/-- Where files could be written, they can be written in any session with the same layout. -/
theorem writeFiles_alike {output : List Char} {manifest : Option (List Char)} {s' : Session}
    (halike : Store.Alike s.files s'.files) (hready : LogsReady s) (hready' : LogsReady s')
    (h : writeFiles output manifest names emitted s = .ok () t) :
    ∃ t', writeFiles output manifest names emitted s' = .ok () t' := by
  obtain ⟨files, u, hsave, ⟨hlogs, -⟩, hrest⟩ := writeFiles_steps h
  obtain ⟨files', hsave', hfiles⟩ := Store.save_alike halike hsave
  refine writeFiles_of_saves hsave' fun path u' hpath hlogs' => ?_
  have hu : Store.Alike u.files u'.files :=
    (hlogs.alike (hready.changes (saved_changes hsave))).symm.trans
      (hfiles.trans (hlogs'.alike (hready'.changes (saved_changes hsave'))))
  rcases hrest with ⟨hnone, -⟩ | ⟨path', text, files₂, hsome, htext, hsave₂, -⟩
  · rw [hnone] at hpath
    cases hpath
  · rw [hsome] at hpath
    cases hpath
    obtain ⟨files₂', hsave₂', -⟩ := Store.save_alike hu hsave₂
    exact ⟨text, files₂', htext, hsave₂'⟩

/-! ## Skipping and deleting -/

/-- A run responds the same as another one has, but without failures, and its files come to hold the
same bytes. -/
def Reproduces (r : Request) (config : Value) (s : Session) (response : Response) (t : Session) :
    Prop :=
  ∃ u, run r config s = .ok { response with failures := [] } u
    ∧ ∀ path, path = response.output ∨ response.manifest = some path →
      ∃ bytes, t.files.Holds path bytes ∧ u.files.Holds path bytes

/-- Two sessions with the same files of a run hold the same bytes in them. -/
theorem Present.same {output : List Char} {manifest : Option (List Char)} {u : Session}
    (ht : Present output manifest names emitted t) (hu : Present output manifest names emitted u)
    {path : List Char} (hpath : path = output ∨ manifest = some path) :
    ∃ bytes, t.files.Holds path bytes ∧ u.files.Holds path bytes := by
  rcases hpath with rfl | hmanifest
  · exact ⟨_, ht.output, hu.output⟩
  · obtain ⟨text, htext, hholds⟩ := ht.manifest path hmanifest
    obtain ⟨text', htext', hholds'⟩ := hu.manifest path hmanifest
    rw [htext] at htext'
    cases htext'
    exact ⟨_, hholds, hholds'⟩

/-- The session with another model in the place of the one that the request names. -/
def Request.putModel (r : Request) (s : Session) (model : Text.Bytes) : Session :=
  s.putFile ((Path.ofText r.input).resolve s.files.cwd) model

theorem putModel_holds (hx : x.Sound r config s.files) (model : Text.Bytes) :
    (r.putModel s model).files.Holds r.inputText model
      ∧ Store.Alike s.files (r.putModel s model).files := by
  obtain ⟨old, hholds, -⟩ := hx.holds
  have hput := putFile_holds hholds model
  rw [Path.resolve_toText] at hput
  exact hput

theorem putModel_changes (hx : x.Sound r config s.files) (model : Text.Bytes) :
    Changes (· = (Path.ofText r.input).resolve s.files.cwd) (fun _ => False) s
      (r.putModel s model) := by
  obtain ⟨old, hholds, -⟩ := hx.holds
  have hne := hholds.writable.get?.2
  rw [Path.resolve_toText] at hne
  exact putFile_changes hne model

/-- Files of a run stay there when the model is replaced: none of them is the model. -/
theorem Present.putModel (h : Present r.output x.manifest names emitted s)
    (hx : x.Sound r config s.files) (model : Text.Bytes) :
    Present r.output x.manifest names emitted (r.putModel s model) := by
  have hapart := apart_of_checkPaths hx.paths
  have hkeeps := (putModel_holds hx model).2.keepsDirectories
  obtain ⟨old, hmodel, -⟩ := hx.holds
  have hne := hmodel.writable.get?.2
  rw [Path.resolve_toText] at hne
  have hkept {path : List Char} {bytes : Text.Bytes} (hholds : s.files.Holds path bytes)
      (hplace : (Path.ofText path).resolve s.files.cwd ≠ (Path.ofText r.input).resolve s.files.cwd) :
      (r.putModel s model).files.Holds path bytes := by
    refine hholds.kept rfl hkeeps ?_
    show (s.files.set _ _).get? _ = _
    rw [Store.get?_set s.files hne, if_neg hplace]
    exact hholds.get?
  refine ⟨hkept h.output hapart.output, fun path hpath => ?_⟩
  obtain ⟨text, htext, hholds⟩ := h.manifest path hpath
  exact ⟨text, htext, hkept hholds (hapart.manifest path hpath).1⟩

/-- A run that can write its files reproduces one that has written the same. -/
theorem reproduces_of_writes {x' : Prepared} {failures : List Binding.Failure}
    (hx : x'.Sound r config s.files)
    (hmade : Made r config x' names ⟨lowered.bindings, []⟩ emitted)
    (hpresent : Present r.output x'.manifest names emitted t)
    (hwrites : ∀ u, Logs s u → ∃ v, writeFiles r.output x'.manifest names emitted u = .ok () v
      ∧ Present r.output x'.manifest names emitted v) :
    Reproduces r config s ⟨r.output, x'.manifest, emitted.declaredNames, failures⟩ t := by
  obtain ⟨u, hlogs, hcarry⟩ := hmade.carryOut s
  obtain ⟨v, hv, hpresent'⟩ := hwrites u hlogs
  refine ⟨v, ?_, fun path hpath => hpresent.same hpresent' hpath⟩
  rw [run_of_prepare (prepare_eq_ok.mpr hx), hcarry, run_bind_ok hv]
  rfl

/-- The files of a run can be written where it began, whatever its model. -/
theorem writes_where_begun {response : Response} (hx : x.Sound r config s.files)
    (hmade : Made r config x names lowered emitted) (hready : LogsReady s)
    (hfree : Unlogged r x.manifest s) (hrun : run r config s = .ok response t)
    (model : Text.Bytes) {u : Session} (hu : Logs (r.putModel s model) u) :
    ∃ v, writeFiles r.output x.manifest names emitted u = .ok () v
      ∧ Present r.output x.manifest names emitted v := by
  obtain ⟨w, hw, hcarry⟩ := hmade.carryOut s
  rw [run_of_prepare (prepare_eq_ok.mpr hx), hcarry] at hrun
  obtain ⟨_, v, hwrites, -⟩ := run_bind_eq_ok.mp hrun
  have hput := putModel_changes hx model
  have hreadyPut := hready.changes hput
  have halike : Store.Alike w.files u.files :=
    (hw.alike hready).symm.trans ((putModel_holds hx model).2.trans (hu.alike hreadyPut))
  obtain ⟨v', hwrites'⟩ :=
    writeFiles_alike halike (hready.changes hw) (hreadyPut.changes hu) hwrites
  have hcwd : u.files.cwd = s.files.cwd := hu.files.cwd
  have hapart : Apart r x.manifest u.files.cwd := by
    rw [hcwd]
    exact apart_of_checkPaths hx.paths
  exact ⟨v', hwrites',
    (writeFiles_present hapart (hreadyPut.changes hu) ((hfree.changes hput).changes hu) hwrites').1⟩

/-- The files of a run can be written where they are there already, whatever the model. -/
theorem writes_where_ended (hx : x.Sound r config s.files) (hready : LogsReady s)
    (hfree : Unlogged r x.manifest s) (hpresent : Present r.output x.manifest names emitted s)
    (model : Text.Bytes) {u : Session} (hu : Logs (r.putModel s model) u) :
    ∃ v, writeFiles r.output x.manifest names emitted u = .ok () v
      ∧ Present r.output x.manifest names emitted v := by
  have hput := putModel_changes hx model
  have hreadyPut := hready.changes hput
  have hfreePut := hfree.changes hput
  have hthere := (hpresent.putModel hx model).logs hu hreadyPut hfreePut
  obtain ⟨v, hwrites, hv⟩ := writeFiles_again hthere (hreadyPut.changes hu) (hfreePut.changes hu)
  exact ⟨v, hwrites, hthere.logs hv (hreadyPut.changes hu) (hfreePut.changes hu)⟩

/-- A run that skips what cannot be bound is reproduced by a run whose model is without it: it
responds the same, has no failures under either policy, and writes the same bytes.  The second run may
begin where the first began, or where it ended. -/
theorem skipping_is_deleting {response : Response} (hready : LogsReady s)
    (hfree : r.Unlogged config s) (hskip : Config.policy config = .ok .skip)
    (hrun : run r config s = .ok response t) :
    ∃ model v h o, s.files.Holds r.inputText model ∧ Decl.Spells model v
      ∧ Decl.Header.ofValue v = .ok h ∧ Config.loweringOptions config = .ok o
      ∧ List.Forall₂ (Binding.Declaration.FailsWith o)
        ((Binding.declarations h).filter (Binding.Declaration.fails o)) response.failures
      ∧ (∃ h', Decl.Header.ofValue (Binding.without (Binding.Declaration.fails o) v) = .ok h'
        ∧ Binding.declarations h' = (Binding.declarations h).filter fun d => !d.fails o)
      ∧ ∀ model' p, Decl.Spells model' (Binding.without (Binding.Declaration.fails o) v) →
        Config.policy (Config.withPolicy p config) = .ok p
        ∧ (p = .skip → Config.withPolicy p config = config)
        ∧ Reproduces r (Config.withPolicy p config) (r.putModel s model') response t
        ∧ Reproduces r (Config.withPolicy p config) (r.putModel t model') response t := by
  obtain ⟨x, names, lowered, emitted, hdone, hkeeps⟩ := run_done hready hfree hrun
  obtain ⟨inner, hsection, -⟩ := Config.exists_hasSection_of_skip hskip
  have hx := hdone.prepared
  have hxt : x.Sound r config t.files := by
    have hmodel := run_keeps_model hfree (.inl rfl)
    rw [hrun] at hmodel
    exact hx.again hdone.changes.files.cwd hkeeps hmodel
  obtain ⟨model, hholds, -⟩ := hx.holds
  have hheader := hx.header
  rw [load_of_holds hholds] at hheader
  obtain ⟨v, hspells, hv⟩ := Decl.exists_spells hheader
  obtain ⟨bindgen, o, profile, hgenerates⟩ := generate_eq_ok.mp hdone.made.generated
  obtain ⟨hall, rfl⟩ := Binding.lower_eq_ok.mp hgenerates.lowered_eq
  have hrest : Decl.Header.ofValue (Binding.without (Binding.Declaration.fails o) v) = _ :=
    Binding.ofValue_without hv
  have hresponse := hdone.response
  subst hresponse
  refine ⟨model, v, x.header, o, hholds, hspells, hv, hgenerates.options_eq,
    (Binding.lowered_accounts hall).failures, ⟨_, hrest, Binding.declarations_restrict _ _⟩,
    fun model' p hspells' => ⟨hsection.policy_withPolicy p, ?_, ?_⟩⟩
  · rintro rfl
    exact Config.withPolicy_skip hskip
  -- What is prepared and made is the same where the first run began and where it ended.
  have hreproduces {q : Session} (hq : x.Sound r config q.files)
      (hwrites : ∀ u, Logs (r.putModel q model') u →
        ∃ v, writeFiles r.output x.manifest names emitted u = .ok () v
          ∧ Present r.output x.manifest names emitted v) :
      Reproduces r (Config.withPolicy p config) (r.putModel q model')
        ⟨r.output, x.manifest, emitted.declaredNames, (Binding.lowered o x.header).failures⟩ t := by
    have hload : Decl.Header.load (r.putModel q model').files r.input
        = .ok (Binding.restrict (fun d => !d.fails o) x.header) := by
      rw [load_of_holds (putModel_holds hq model').1, hspells'.ofBytes, hrest]
      rfl
    have hcwd : (r.putModel q model').files.cwd = q.files.cwd := rfl
    obtain ⟨x', hx', hmanifest, hmade'⟩ := exists_made_bindable (hsection.sameApart p)
      (hsection.policy_withPolicy p) hgenerates.options_eq hq hdone.made hcwd hload
    have hpresent := hdone.present
    rw [← hmanifest] at hpresent hwrites ⊢
    exact reproduces_of_writes hx' hmade' hpresent hwrites
  have hunlogged := hfree _ hx.manifest
  refine ⟨hreproduces hx fun u hu => ?_, hreproduces hxt fun u hu => ?_⟩
  · exact writes_where_begun hx hdone.made hready hunlogged hrun model' hu
  · exact writes_where_ended hxt (hready.changes hdone.changes) (hunlogged.changes hdone.changes)
      hdone.present model' hu

/-- The opaque type of every model. -/
def opaqueItem : Value :=
  .table [("name", .text "T"),
    ("location", .table [("kind", .text ""), ("file_name", .text "p.h"), ("line", .int 9)])]

/-- The document of a model with these records and an opaque type. -/
def modelValue (records : List Value) : Value :=
  .table [("records", .list records), ("opaque_data_types", .list [opaqueItem])]

/-- What `gapRecord` spells. -/
def gapItem : Value :=
  let location (line : Int) : Value :=
    .table [("kind", .text ""), ("file_name", .text "p.h"), ("line", .int line)]
  let type (name : String) (size : Int) : Value :=
    .table [("name", .text name), ("size_of", .int size), ("align_of", .int 4)]
  .table [("name", .text "P"), ("location", location 3), ("type", type "P" 8),
    ("fields", .list [.table [("name", .text "x"), ("location", location 4), ("type", type "int" 4),
      ("offset", .int 0), ("padding", .int 0)]])]

theorem spells_gap : Decl.Spells (linesBytes (modelLines gapRecord)) (modelValue [gapItem]) := by
  have hdecode : Text.Utf8.decode (linesBytes (modelLines gapRecord))
      = .ok ((modelLines gapRecord).flatMap (·.toList)) := by decide +kernel
  refine ⟨_, hdecode, ?_⟩
  set_option maxRecDepth 20000 in cbv

theorem spells_rest : Decl.Spells (linesBytes (modelLines [])) (modelValue []) := by
  have hdecode : Text.Utf8.decode (linesBytes (modelLines []))
      = .ok ((modelLines []).flatMap (·.toList)) := by decide +kernel
  refine ⟨_, hdecode, ?_⟩
  cbv

/-- Only the record with a gap cannot be bound. -/
theorem without_gap :
    Binding.without (Binding.Declaration.fails Binding.checkedOptions) (modelValue [gapItem])
      = modelValue [] := by
  have hgap : (Binding.Declaration.ofItem? "records" gapItem).any
      (Binding.Declaration.fails Binding.checkedOptions) = true := by decide +kernel
  have hrest : (Binding.Declaration.ofItem? "opaque_data_types" opaqueItem).any
      (Binding.Declaration.fails Binding.checkedOptions) = false := by decide +kernel
  simp [modelValue, Binding.without, Binding.withoutItems, hgap, hrest]

theorem skipping_is_deleting_gap :
    ∃ response t, run gapRequest (checkedConfig "skip") gapSession = .ok response t
      ∧ response.failures.map (·.name) = ["P"]
      ∧ Reproduces gapRequest (Config.withPolicy .abort (checkedConfig "skip"))
        (gapRequest.putModel gapSession (linesBytes (modelLines []))) response t := by
  have hready : LogsReady gapSession := fun place hplace => nomatch hplace
  have hfree : gapRequest.Unlogged (checkedConfig "skip") gapSession := fun manifest _ =>
    ⟨List.not_mem_nil, List.not_mem_nil, fun _ _ => List.not_mem_nil⟩
  have hfailures : (match run gapRequest (checkedConfig "skip") gapSession with
      | .ok response _ => some (response.failures.map (·.name))
      | .error _ _ => none) = some ["P"] := by decide +kernel
  cases hrun : run gapRequest (checkedConfig "skip") gapSession with
  | error e t =>
    rw [hrun] at hfailures
    cases hfailures
  | ok response t =>
    rw [hrun] at hfailures
    obtain ⟨model, v, h, o, hholds, hspells, -, hoptions, -, -, hdeleting⟩ :=
      skipping_is_deleting hready hfree rfl hrun
    have hread : gapSession.files.readFile? gapRequest.inputText
        = .ok (some (linesBytes (modelLines gapRecord))) := by decide +kernel
    rw [Store.readFile?_eq_some.mpr hholds] at hread
    cases hread
    have hchecked : Config.loweringOptions (checkedConfig "skip") = .ok Binding.checkedOptions := rfl
    cases hoptions.symm.trans hchecked
    cases hspells.unique spells_gap
    have hspells' := spells_rest
    rw [← without_gap] at hspells'
    obtain ⟨-, -, hbegun, -⟩ := hdeleting _ .abort hspells'
    exact ⟨response, t, rfl, Option.some.inj hfailures, hbegun⟩

end Interop.Generation
