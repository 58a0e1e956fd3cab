import Interop.Command.Bindgen
import Interop.Proofs.Config.Merge
import Interop.Proofs.Log.Setup
import Interop.Proofs.Value.Text

/-!
# Mistakes in a configuration

While the configuration is prepared almost everything that goes wrong is a mistake, and is reported.
The sections of a configuration are tables, so what is looked up in them is there; what is left is
a home directory that is not known, an infinite number of workers, and a pattern for the names of
log files that is no text or cannot be filled (`prepare_failing`).
-/

set_option autoImplicit false

namespace Interop

open Binding (DigitLimited)
open Session
open Value (Entries)

theorem eq_false_of_ite {b : Bool} {text : List Char} (h : (if b then some text else none) = none) :
    b = false := by
  cases b with
  | false => rfl
  | true => cases h

/-- The fault is a mistake, or an integer was asked of an infinity. -/
def Fault.Foreseen (fault : Fault) : Prop :=
  fault.isMistake = false → fault = .number .infiniteToInteger

theorem Fault.IsDigitLimit.isMistake {fault : Fault} (h : fault.IsDigitLimit) :
    fault.isMistake = true := by
  cases h <;> rfl

theorem Text.readInteger?_digitLimited (t : List Char) :
    Ends (readInteger? t) (fun _ => True) DigitLimited := by
  unfold readInteger?
  dsimp only
  split
  · exact Ends.ok trivial
  · exact Ends.ok trivial
  · split
    · exact Ends.error (.read _)
    · split
      · exact Ends.ok trivial
      · exact Ends.ok trivial

/-! ## Options -/

namespace Config

variable {entries : Entries}

def ConfigError.Foreseen : ConfigError → Prop
  | .fault f => f.Foreseen
  | _ => True

theorem toInteger_ends (v : Value) :
    Ends (toInteger v) (fun _ => True) Fault.Foreseen := by
  cases v with
  | number n =>
    cases n with
    | int n => exact Ends.ok trivial
    | double x =>
      cases x with
      | nan => exact Ends.error nofun
      | infinite negative => exact Ends.error fun _ => rfl
      | finite negative significand exponent => exact Ends.ok trivial
  | text s =>
    have hread := Text.readInteger?_digitLimited s.toList
    unfold toInteger
    dsimp only
    split
    · exact Ends.ok trivial
    · exact Ends.error nofun
    · rename_i fault hfault
      refine Ends.error fun hmistake => ?_
      rw [(hread.failure hfault).isMistake] at hmistake
      cases hmistake
  | bool b => exact Ends.ok trivial
  | _ => exact Ends.error nofun

theorem loweringOptions_ends (h : Sectioned entries) :
    Ends (loweringOptions (.table entries)) (fun _ => True) Fault.Foreseen := by
  obtain ⟨mapping, hmapping⟩ := h.sectionOrEmpty (show "mapping" ∈ sectionNames by decide)
  unfold loweringOptions
  rw [hmapping]
  exact (toInteger_ends _).bind fun workers _ => Ends.ok trivial

theorem policy_ends (h : Sectioned entries) :
    Ends (policy (.table entries)) (fun _ => True) ConfigError.Foreseen := by
  obtain ⟨bindgen, hbindgen, -⟩ := h.sectionOf (show "bindgen" ∈ sectionNames by decide)
  unfold policy
  refine Ends.of_ok (mapError_eq_ok.mpr hbindgen) (Ends.of_ok rfl ?_)
  split
  · exact Ends.ok trivial
  · exact Ends.ok trivial
  · exact Ends.error trivial

/-- A configuration fails its check by mistake, or for an infinite number of workers. -/
theorem check_ends (h : Sectioned entries) :
    Ends (check (.table entries)) (fun _ => True) ConfigError.Foreseen := by
  obtain ⟨bindgen, hbindgen, -⟩ := h.sectionOf (show "bindgen" ∈ sectionNames by decide)
  have hoptions : Ends (loweringOptions (.table entries)) (fun _ => True)
      fun fault => (ConfigError.fault fault).Foreseen := loweringOptions_ends h
  unfold check
  refine (policy_ends h).bind fun _ _ => ?_
  refine (Ends.mapError hoptions).bind fun _ _ => ?_
  refine Ends.of_ok (mapError_eq_ok.mpr hbindgen) (Ends.of_ok rfl ?_)
  split
  · exact Ends.ok trivial
  · exact Ends.error trivial

end Config

/-! ## The journal -/

namespace Log

variable {entries inner : Entries}

theorem Level.ofText_ends (t : List Char) :
    Ends (Level.ofText t) (fun _ => True) fun e => (SetupError.level e).isMistake = true := by
  have hread := Text.readInteger?_digitLimited t
  unfold Level.ofText
  dsimp only
  split
  · split
    · exact Ends.ok trivial
    · exact Ends.error rfl
    · rename_i fault hfault
      exact Ends.error (hread.failure hfault).isMistake
  · split
    · exact Ends.ok trivial
    · exact Ends.error rfl

theorem Level.ofValue_ends (v : Value) (default : Level) :
    Ends (Level.ofValue v default) (fun _ => True)
      fun e => (SetupError.level e).isMistake = true := by
  unfold Level.ofValue
  split
  · exact Ends.ok trivial
  · exact Ends.ok trivial
  · exact Ends.ok trivial
  · exact Ends.ok trivial
  · split
    · exact Level.ofText_ends _
    · rename_i fault hfault
      exact Ends.error ((Value.plainText_ends v).failure hfault).isMistake

/-- A logging section that is a table asks for something, or makes a mistake. -/
theorem wishes_ends (h : Config.Sectioned entries) (level directory : Value) :
    Ends (wishes (.table entries) level directory) (fun w => ∃ inner, w.options = .table inner)
      fun e => e.isMistake = true := by
  obtain ⟨options, hoptions⟩ := h.sectionOrEmpty (show "logging" ∈ Config.sectionNames by decide)
  have hlevel (v : Value) (default : Level) :
      Ends ((Level.ofValue v default).mapError SetupError.level) (fun _ => True)
        fun e => e.isMistake = true := Ends.mapError (Level.ofValue_ends v default)
  unfold wishes
  rw [hoptions]
  refine (hlevel _ _).bind fun standing _ => (hlevel _ _).bind fun console _ => ?_
  refine (hlevel _ _).bind fun file _ => Ends.ok ⟨options, rfl⟩

/-- The errors of a name that are no mistakes: the pattern is no text, or cannot be filled. -/
inductive NameError.Unforeseen : NameError → Prop
  | notText (kind : String) : Unforeseen (.fault (.lacks kind "format"))
  | unfilled {e : Template.FillError} (h : e.isMistake = false) : Unforeseen (.template e)

theorem fileName_ends (room : Nat) (inner : Entries) (moment : Moment) (suffix : List Char) :
    Ends (fileName room (.table inner) moment suffix) (fun _ => True)
      fun e => (SetupError.name e).isMistake = false → e.Unforeseen := by
  have hstamp : Ends (timestamp (.table inner) moment) (fun _ => True)
      fun e => (SetupError.name e).isMistake = false → e.Unforeseen := by
    unfold timestamp
    refine Ends.of_ok rfl ?_
    split
    · exact Ends.ok trivial
    · exact Ends.error nofun
  refine hstamp.bind fun stamp _ => ?_
  refine Ends.bind (P := fun _ => True) (Ends.ok trivial) fun pattern _ => ?_
  refine Ends.bind (P := fun _ => True) (Ends.mapError ?_) fun pattern _ => ?_
  · cases pattern with
    | text s => exact Ends.ok trivial
    | _ => exact Ends.error fun _ => .notText _
  refine Ends.bind (P := fun _ => True) (Ends.mapError ?_) fun name _ => Ends.ok trivial
  exact ⟨fun _ => trivial, fun _ => .unfilled⟩

/-- The errors of the setup that are no mistakes are those of a name. -/
def SetupError.Foreseen (e : SetupError) : Prop :=
  e.isMistake = false → ∃ error, e = .name error ∧ error.Unforeseen

theorem openLog_failing {w : Wishes} (h : w.options = .table inner)
    (directory suffix : List Char) (sink : Place → Sink) :
    Failing (openLog w directory suffix sink) SetupError.Foreseen := by
  unfold openLog
  refine Failing.get fun s => ?_
  rw [h]
  have hname := fileName_ends s.surroundings.room inner s.surroundings.moment suffix
  refine Failing.bind (settle_failing (Ends.mapError (hname.failing ?_))) fun name _ _ _ => ?_
  · exact fun error herror hmistake => ⟨error, rfl, herror hmistake⟩
  refine Failing.bind (change_failing fun _ _ _ _ => nofun) fun place _ _ _ => ?_
  exact Failing.bind (Failing.modify _) fun _ _ _ _ => Failing.pure _

theorem setup_failing (h : Config.Sectioned entries) (level directory : Value) :
    Failing (setup (.table entries) level directory) SetupError.Foreseen := by
  unfold setup
  have hwishes : Ends (wishes (.table entries) level directory)
      (fun w => ∃ inner, w.options = .table inner) SetupError.Foreseen := by
    refine (wishes_ends h level directory).failing fun e he hmistake => ?_
    rw [he] at hmistake
    cases hmistake
  refine (settle_failing hwishes).bind fun w s t hw => ?_
  obtain ⟨inner, hinner⟩ := hwishes.result (settle_eq_ok.mp hw).1
  refine Failing.get fun s => (Failing.modify _).bind fun _ _ _ _ => ?_
  split
  · exact (Failing.modify _).bind fun _ _ _ _ => Failing.pure _
  · split
    · refine Failing.get fun s => (change_failing fun _ _ _ _ => nofun).bind fun _ _ _ _ => ?_
      refine (Failing.modify _).bind fun _ _ _ _ => ?_
      refine (openLog_failing hinner _ _ _).bind fun textPath _ _ _ => ?_
      split
      · rw [map_eq_pure_bind]
        refine Failing.bind ?_ fun jsonPath _ _ _ => Failing.pure _
        exact (openLog_failing hinner _ _ _).bind fun _ _ _ _ => Failing.pure _
      · exact (Failing.pure _).bind fun jsonPath _ _ _ => Failing.pure _
    · exact Failing.throw nofun

end Log

/-! ## The configuration of a run -/

namespace Command

variable {toml : Toml.Reader}

/-- What nobody reports while the configuration is prepared. -/
inductive PrepareError.Unreported : PrepareError → Prop
  | noHome : Unreported (.load .noHome)
  | infiniteWorkers : Unreported (.config (.fault (.number .infiniteToInteger)))
  | logName {e : Log.NameError} (h : e.Unforeseen) : Unreported (.setup (.name e))

/-- The sections of a configuration with the options of a run are tables. -/
theorem sectioned_withArguments {a : Arguments} {loaded : Entries} (h : Config.Sectioned loaded) :
    Config.Sectioned (withArguments a loaded) := by
  unfold withArguments
  dsimp only
  split
  · split
    · exact (h.override _ _ _).override _ _ _
    · exact h.override _ _ _
  · split
    · exact h.override _ _ _
    · exact h

theorem load_sectioned {files : Store} {sources : Config.Sources} {loaded : Entries}
    (h : Config.load toml files sources = .ok loaded) : Config.Sectioned loaded := by
  unfold Config.load at h
  obtain ⟨found, -, h⟩ := bind_eq_ok.mp h
  cases found with
  | none =>
    cases h
    exact Config.sectioned_defaults
  | some bytes =>
    obtain ⟨user, -, h⟩ := bind_eq_ok.mp h
    exact Config.sectioned_merge (mapError_eq_ok.mp h)

theorem report?_config {e : Config.ConfigError} (h : e.Foreseen)
    (hreport : (PrepareError.config e).report? = none) : (PrepareError.config e).Unreported := by
  cases e with
  | fault fault =>
    rw [h (eq_false_of_ite hreport)]
    exact .infiniteWorkers
  | invalidPolicy policy => cases hreport
  | usingsNotAList => cases hreport

theorem loadConfig_ends (toml : Toml.Reader) (a : Arguments) (s : Session) :
    Ends (loadConfig toml a s)
      (fun config => ∃ entries inner p o, config = .table entries ∧ Config.Sectioned entries
        ∧ Config.Usable entries inner p o)
      fun e => e.report? = none → e.Unreported := by
  have hload : Ends ((Config.load toml s.files (sources a s.surroundings)).mapError
      PrepareError.load) Config.Sectioned fun e => e.report? = none → e.Unreported := by
    refine Ends.mapError ⟨load_sectioned, fun {e} _ hreport => ?_⟩
    cases e with
    | noHome => exact .noHome
    | _ => cases hreport
  refine hload.bind fun loaded hloaded => ?_
  have hsectioned := sectioned_withArguments (a := a) hloaded
  have hcheck := ((Config.check_ends hsectioned).failing fun e he => report?_config he).also
    fun _ hchecked => Config.exists_usable hsectioned hchecked
  refine (Ends.mapError hcheck).bind fun _ ⟨⟨inner, p, o, husable⟩, _⟩ => ?_
  exact Ends.ok ⟨_, inner, p, o, rfl, hsectioned, husable⟩

/-- Whatever goes wrong while the configuration is prepared is reported, but for this. -/
theorem prepare_failing (toml : Toml.Reader) (a : Arguments) :
    Failing (prepare toml a) fun e => e.report? = none → e.Unreported := by
  refine Failing.get fun s => (settle_failing (loadConfig_ends toml a s)).bind fun config t u hconfig => ?_
  obtain ⟨entries, inner, p, o, rfl, hsectioned, -⟩ :=
    (loadConfig_ends toml a s).result (settle_eq_ok.mp hconfig).1
  have hsetup := Log.setup_failing hsectioned a.levelValue (textOrNull a.logDir)
  -- The setup is an action with errors of its own, so no rule applies to how it is run here.
  refine Failing.bind (fun s e t hrun hreport => ?_) fun _ _ _ _ => Failing.pure _
  split at hrun
  · cases hrun
  · rename_i error v hfails
    cases hrun
    obtain ⟨name, rfl, hname⟩ := hsetup _ _ _ hfails (eq_false_of_ite hreport)
    exact .logName hname

variable {a : Arguments} {s t : Session} {config : Value}

/-- A configuration is prepared when it is loaded and the journal is set up. -/
theorem prepare_steps (h : prepare toml a s = .ok config t) :
    loadConfig toml a s = .ok config
      ∧ ∃ settings, Log.setup config a.levelValue (textOrNull a.logDir) s = .ok settings t := by
  unfold prepare at h
  obtain ⟨_, _, hget, hload⟩ := run_bind_eq_ok.mp h
  cases hget
  obtain ⟨loaded, u, hsettle, hrest⟩ := run_bind_eq_ok.mp hload
  obtain ⟨hloaded, hu⟩ := settle_eq_ok.mp hsettle
  obtain ⟨_, v, hsetup, hreturn⟩ := run_bind_eq_ok.mp hrest
  cases hreturn
  refine ⟨hloaded, ?_⟩
  split at hsetup
  · rename_i settings w hdone
    cases hsetup
    rw [hu] at hdone
    exact ⟨_, hdone⟩
  · cases hsetup

/-- A configuration that was prepared can be used. -/
theorem usable_of_prepare (h : prepare toml a s = .ok config t) :
    ∃ entries inner p o, config = .table entries ∧ Config.Usable entries inner p o := by
  obtain ⟨entries, inner, p, o, hentries, -, husable⟩ :=
    (loadConfig_ends toml a s).result (prepare_steps h).1
  exact ⟨entries, inner, p, o, hentries, husable⟩

theorem prepare_logsReady (hready : LogsReady s) (h : prepare toml a s = .ok config t) :
    LogsReady t := by
  obtain ⟨-, settings, hsetup⟩ := prepare_steps h
  have hkeeps := Log.setup_logsReady config a.levelValue (textOrNull a.logDir) hready
  rwa [hsetup] at hkeeps

end Command

end Interop
