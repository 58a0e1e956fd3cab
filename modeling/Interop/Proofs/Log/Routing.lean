import Interop.Proofs.Log.Setup

/-!
# Where records go

A journal that was set up has two handlers for the console and one for each log file, and its level
is the lowest that any of them asks for.  So it keeps nothing from a handler that would take it, and
every record goes to the console from the one level on and to the log files from the other
(`records_routed`).

The exception is a lowest level of zero.  To a journal zero is no level at all: it takes that of
warnings, and what is below goes nowhere, whatever the handlers ask for.
-/

set_option autoImplicit false

namespace Interop.Log

open Session

/-! ## What the settings ask for -/

/-- The place that the path of a log file leads to. -/
def logPlace (cwd : Place) (path : List Char) : Place :=
  (Path.ofText (Path.absoluteText cwd path)).resolve cwd

/-- The log files of a setup: the one with text and then the one with JSON. -/
def Settings.logs (cwd : Place) (settings : Settings) : List Sink :=
  (settings.textPath.map fun path => .textFile (logPlace cwd path)).toList
    ++ (settings.jsonPath.map fun path => .jsonFile (logPlace cwd path)).toList

/-- The one stream of the console that records of a level go to. -/
def stream (colour : Bool) (surroundings : Surroundings) (level : Int) : Sink :=
  if level < Level.error then .output (colour && surroundings.outputIsTerminal)
  else .errors (colour && surroundings.errorsIsTerminal)

/-- Where records of a level are to go: to the console from the level of the console on, and to the
log files from the level of the files on. -/
def Settings.sinks (settings : Settings) (colour : Bool) (s : Session) (level : Int) : List Sink :=
  (if settings.consoleLevel.rank ≤ level then [stream colour s.surroundings level] else [])
    ++ if settings.fileLevel.rank ≤ level then settings.logs s.files.cwd else []

/-- The lowest level that is asked for, that of the files only if there are any. -/
def Settings.lowest (settings : Settings) : Int :=
  if settings.directory.isSome then min settings.consoleLevel.rank settings.fileLevel.rank
  else settings.consoleLevel.rank

/-- What the setup came to is what was wished for. -/
structure Settings.Grants (settings : Settings) (w : Wishes) : Prop where
  consoleLevel : settings.consoleLevel = w.consoleLevel
  fileLevel : settings.fileLevel = w.fileLevel
  directory : settings.directory.isSome = w.directory.isTruthy
  text : settings.textPath.isSome = w.directory.isTruthy
  json : settings.jsonPath.isSome = (w.directory.isTruthy && w.json)

/-! ## Levels -/

theorem rank_lower (a b : Level) : (a.lower b).rank = min a.rank b.rank := by
  unfold Level.lower
  split <;> omega

theorem rank_atLeastError (l : Level) : l.atLeastError.rank = max l.rank Level.error := by
  unfold Level.atLeastError
  split
  · show Level.error = _
    omega
  · omega

/-! ## Handlers -/

/-- A handler for each log file. -/
def logHandlers (level : Level) (logs : List Sink) : List Handler :=
  logs.map fun sink => ⟨sink, level⟩

/-- The two handlers of the console share the records from its level on: one of them takes those
below errors, and the other one the rest. -/
theorem consoleHandlers_take (c : Level) (colour : Bool) (surroundings : Surroundings)
    (level : Int) :
    ((consoleHandlers c colour surroundings).filter (·.takes level)).map (·.sink)
      = if c.rank ≤ level then [stream colour surroundings level] else [] := by
  have houtput : Handler.takes ⟨.output (colour && surroundings.outputIsTerminal), c⟩ level
      = decide (c.rank ≤ level ∧ level < Level.error) :=
    (Bool.decide_and _ _).symm
  have herrors : Handler.takes ⟨.errors (colour && surroundings.errorsIsTerminal), c.atLeastError⟩
      level = decide (c.rank ≤ level ∧ Level.error ≤ level) := by
    show (decide (c.atLeastError.rank ≤ level) && true) = _
    rw [rank_atLeastError, Bool.and_true, decide_eq_decide]
    omega
  unfold consoleHandlers stream
  rw [List.filter_cons, List.filter_cons, List.filter_nil, houtput, herrors]
  by_cases hc : c.rank ≤ level
  · by_cases he : level < Level.error
    · simp [hc, he]
    · simp [hc, he, Int.not_lt.mp he]
  · simp [hc]

/-- Log files take all records from their level on. -/
theorem logHandlers_take {f : Level} {logs : List Sink}
    (hlogs : ∀ sink ∈ logs, ∀ level, sink.takes level = true) (level : Int) :
    ((logHandlers f logs).filter (·.takes level)).map (·.sink)
      = if f.rank ≤ level then logs else [] := by
  induction logs with
  | nil => simp [logHandlers]
  | cons sink logs ih =>
    obtain ⟨hsink, hlogs⟩ := List.forall_mem_cons.mp hlogs
    have htakes : Handler.takes ⟨sink, f⟩ level = decide (f.rank ≤ level) := by
      rw [Handler.takes, hsink, Bool.and_true]
    have ih := ih hlogs
    unfold logHandlers at ih ⊢
    rw [List.map_cons, List.filter_cons, htakes]
    by_cases hf : f.rank ≤ level
    · simp only [hf, if_true, decide_true, List.map_cons] at ih ⊢
      rw [ih]
    · simpa [hf] using ih

theorem logs_take {settings : Settings} {cwd : Place} :
    ∀ sink ∈ settings.logs cwd, ∀ level, sink.takes level = true := by
  intro sink hsink level
  rcases List.mem_append.mp hsink with htext | hjson
  · obtain ⟨path, -, rfl⟩ := Option.map_eq_some_iff.mp (Option.mem_toList.mp htext)
    rfl
  · obtain ⟨path, -, rfl⟩ := Option.map_eq_some_iff.mp (Option.mem_toList.mp hjson)
    rfl

/-! ## Setting up -/

variable {s t : Session}

/-- What is opened to be written at its end is where its path leads to. -/
theorem openToAppend_place {files files' : Store} {path : List Char} {place : Place}
    (h : Store.openToAppend path files = .ok place files') :
    place = (Path.ofText path).resolve files.cwd ∧ files'.cwd = files.cwd := by
  unfold Store.openToAppend at h
  rcases Store.openFile_run files path with ⟨place', old, hopen, hwritable⟩ | ⟨e, hopen⟩
  · rw [run_bind_ok hopen] at h
    cases h
    exact ⟨hwritable.place_eq, rfl⟩
  · rw [run_bind_error hopen] at h
    cases h

/-- Opening a log file adds its handler, and moves nothing. -/
theorem openLog_eq_ok {w : Wishes} {directory suffix path : List Char} {sink : Place → Sink}
    (h : openLog w directory suffix sink s = .ok path t) :
    t.files.cwd = s.files.cwd ∧ t.surroundings = s.surroundings
      ∧ t.journal = { s.journal with
          handlers := s.journal.handlers ++ [⟨sink (logPlace s.files.cwd path), w.fileLevel⟩] } := by
  unfold openLog at h
  obtain ⟨found, u, hfound, h⟩ := run_bind_eq_ok.mp h
  cases hfound
  obtain ⟨name, u, hname, h⟩ := run_bind_eq_ok.mp h
  obtain ⟨-, rfl⟩ := settle_eq_ok.mp hname
  obtain ⟨place, v, hchange, h⟩ := run_bind_eq_ok.mp h
  obtain ⟨files, hopen, rfl⟩ := change_eq_ok.mp hchange
  obtain ⟨rfl, hcwd⟩ := openToAppend_place hopen
  cases h
  exact ⟨hcwd, rfl, rfl⟩

/-- A log file that is opened only if it is wanted adds its handler if it is, and what follows runs
either way. -/
theorem openWanted_eq_ok {w : Wishes} {wanted : Bool} {directory suffix : List Char}
    {sink : Place → Sink} {rest : Option (List Char) → Action SetupError Settings}
    {settings : Settings}
    (h : (if wanted = true then some <$> openLog w directory suffix sink >>= rest
      else pure none >>= rest) s = .ok settings t) :
    ∃ opened u, opened.isSome = wanted
      ∧ u.journal = { s.journal with
          handlers := s.journal.handlers ++ logHandlers w.fileLevel
            (opened.map fun path => sink (logPlace s.files.cwd path)).toList }
      ∧ rest opened u = .ok settings t := by
  cases wanted with
  | true =>
    rw [if_pos rfl, map_eq_pure_bind] at h
    obtain ⟨opened, u, hopened, hrest⟩ := run_bind_eq_ok.mp h
    obtain ⟨path, v, hopen, hsome⟩ := run_bind_eq_ok.mp hopened
    cases hsome
    exact ⟨some path, u, rfl, (openLog_eq_ok hopen).2.2, hrest⟩
  | false =>
    rw [if_neg Bool.false_ne_true, pure_bind] at h
    refine ⟨none, s, rfl, ?_, h⟩
    show s.journal = { s.journal with handlers := s.journal.handlers ++ [] }
    rw [List.append_nil]

/-- Making directories moves nothing and leaves the journal as it is. -/
theorem ensureDirectories_eq_ok {steps : Nat} {path : List Char}
    (h : change SetupError.file (Store.ensureDirectories steps path) s = .ok () t) :
    t.files.cwd = s.files.cwd ∧ t.surroundings = s.surroundings ∧ t.journal = s.journal := by
  obtain ⟨files, hrun, rfl⟩ := change_eq_ok.mp h
  have hmakes := Store.ensureDirectories_makes steps s.files path
  rw [hrun] at hmakes
  exact ⟨hmakes.cwd, rfl, rfl⟩

/-- A journal that was set up: its level is the lowest that is asked for, and its handlers are those
of the console and of the log files, whatever it had before. -/
structure SetUp (w : Wishes) (s : Session) (settings : Settings) (j : Journal) : Prop where
  grants : settings.Grants w
  level : j.level.rank = settings.lowest
  handlers : j.handlers = consoleHandlers w.consoleLevel w.colour s.surroundings
    ++ logHandlers w.fileLevel (settings.logs s.files.cwd)

theorem setup_eq_ok {config level directory : Value} {settings : Settings}
    (h : setup config level directory s = .ok settings t) :
    ∃ w, wishes config level directory = .ok w ∧ SetUp w s settings t.journal := by
  unfold setup at h
  obtain ⟨w, u, hsettle, hrest⟩ := run_bind_eq_ok.mp h
  obtain ⟨hwishes, rfl⟩ := settle_eq_ok.mp hsettle
  refine ⟨w, hwishes, ?_⟩
  clear h hsettle
  obtain ⟨found, v, hfound, h⟩ := run_bind_eq_ok.mp hrest
  cases hfound
  obtain ⟨⟨⟩, v, hhandlers, h⟩ := run_bind_eq_ok.mp h
  cases hhandlers
  by_cases hnone : (!w.directory.isTruthy) = true
  · -- Without log files the level of the files does not count.
    rw [if_pos hnone] at h
    cases h
    have hdirectory : w.directory.isTruthy = false := by simpa using hnone
    constructor
    case grants => exact ⟨rfl, rfl, hdirectory.symm, hdirectory.symm, by rw [hdirectory]; rfl⟩
    case level => rfl
    case handlers => exact (List.append_nil _).symm
  rw [if_neg hnone] at h
  have hdirectory : w.directory.isTruthy = true := by simpa using hnone
  cases hvalue : w.directory with
  | text d =>
    rw [hvalue] at h
    obtain ⟨found, v, hfound, h⟩ := run_bind_eq_ok.mp h
    cases hfound
    obtain ⟨⟨⟩, v, hensure, h⟩ := run_bind_eq_ok.mp h
    obtain ⟨hcwd, -, hjournal⟩ := ensureDirectories_eq_ok hensure
    -- The level is set before a log file is opened, and opening one only adds a handler.
    obtain ⟨⟨⟩, x, hlevel, h⟩ := run_bind_eq_ok.mp h
    cases hlevel
    obtain ⟨textPath, y, htext, h⟩ := run_bind_eq_ok.mp h
    obtain ⟨hcwd', -, hjournal'⟩ := openLog_eq_ok htext
    obtain ⟨jsonPath, z, hwanted, hjournal'', h⟩ := openWanted_eq_ok h
    cases h
    constructor
    case grants =>
      refine ⟨rfl, rfl, hdirectory.symm, hdirectory.symm, ?_⟩
      rw [hdirectory, Bool.true_and]
      exact hwanted
    case level =>
      rw [hjournal'', hjournal']
      exact rank_lower _ _
    case handlers =>
      rw [hjournal'', hjournal', hcwd']
      dsimp only
      rw [hjournal, hcwd, List.append_assoc]
      rfl
  | _ =>
    rw [hvalue] at h
    cases h

/-! ## Routing -/

/-- The handlers of a journal that was set up take a record to where the settings want it. -/
theorem SetUp.take {w : Wishes} {settings : Settings} {j : Journal} (h : SetUp w s settings j)
    (level : Int) :
    (j.handlers.filter (·.takes level)).map (·.sink) = settings.sinks w.colour s level := by
  rw [h.handlers, List.filter_append, List.map_append, consoleHandlers_take,
    logHandlers_take logs_take, ← h.grants.consoleLevel, ← h.grants.fileLevel]
  rfl

/-- What is wanted is what handlers take, if the journal lets the record pass. -/
theorem SetUp.deliveries_eq {w : Wishes} {settings : Settings} {j : Journal}
    (h : SetUp w s settings j) (r : Record) :
    j.deliveries r = if j.passes r.level then
      (settings.sinks w.colour s r.level).map (·.deliver r) else [] := by
  unfold Journal.deliveries
  cases hpasses : j.passes r.level with
  | false => rfl
  | true =>
    rw [← h.take, List.map_map, Bool.not_true, if_neg Bool.false_ne_true, if_pos rfl]
    split
    · -- There are always the handlers of the console.
      next hhandlers =>
      rw [h.handlers] at hhandlers
      cases hhandlers
    · rfl

/-- Nothing is wanted below the lowest level. -/
theorem Settings.sinks_eq_nil {settings : Settings} {w : Wishes} (hgrants : settings.Grants w)
    {level : Int} (hlow : level < settings.lowest) (colour : Bool) (s : Session) :
    settings.sinks colour s level = [] := by
  unfold Settings.lowest at hlow
  unfold Settings.sinks
  cases hdirectory : settings.directory with
  | some d =>
    rw [hdirectory, Option.isSome_some, if_pos rfl] at hlow
    rw [if_neg (by omega), if_neg (by omega)]
    rfl
  | none =>
    have htruthy := hgrants.directory
    rw [hdirectory] at hlow htruthy
    have htext : settings.textPath = none := by
      rw [← Option.not_isSome_iff_eq_none, hgrants.text, ← htruthy]
      simp
    have hjson : settings.jsonPath = none := by
      rw [← Option.not_isSome_iff_eq_none, hgrants.json, ← htruthy]
      simp
    rw [if_neg (by simpa using hlow), Settings.logs, htext, hjson]
    simp

/-- **Where records go.**  After the journal has been set up, a record goes to the console just if
its level is that of the console or more, and there to one stream; and it goes to the log files just
if there are any and its level is that of the files or more.  This holds of all records if the lowest
of the levels is not zero.  If it is, records below warnings go nowhere.  (A record of level zero or
below is never made.) -/
theorem records_routed {config level directory : Value} {settings : Settings}
    (h : setup config level directory s = .ok settings t) :
    ∃ w, wishes config level directory = .ok w ∧ settings.Grants w
      ∧ (settings.lowest ≠ 0 → ∀ r : Record, 0 < r.level →
        t.journal.deliveries r = (settings.sinks w.colour s r.level).map (·.deliver r))
      ∧ (settings.lowest = 0 → ∀ r : Record, 0 < r.level →
        t.journal.deliveries r = if Level.warning ≤ r.level then
          (settings.sinks w.colour s r.level).map (·.deliver r) else [])
      ∧ ∀ r : Record, r.level ≤ 0 → t.journal.deliveries r = [] := by
  obtain ⟨w, hwishes, hsetup⟩ := setup_eq_ok h
  refine ⟨w, hwishes, hsetup.grants, fun hlowest r hr => ?_, fun hlowest r hr => ?_, fun r hr => ?_⟩
  · rw [hsetup.deliveries_eq, Journal.passes, Journal.threshold, hsetup.level, if_neg hlowest]
    by_cases hlow : r.level < settings.lowest
    · rw [Settings.sinks_eq_nil hsetup.grants hlow]
      exact ite_self _
    · exact if_pos (by simpa [hr] using hlow)
  · rw [hsetup.deliveries_eq, Journal.passes, Journal.threshold, hsetup.level, if_pos hlowest]
    simp [hr]
  · rw [hsetup.deliveries_eq, Journal.passes]
    exact if_neg (by simp; omega)

/-- A section that keeps logs of both forms, from a level on. -/
def keptSection (fileLevel : String) : Value :=
  .table [("dir", .text "logs"), ("jsonl", .bool true), ("filename_pattern", .text "c2cs.log"),
    ("file_level", .text fileLevel)]

theorem fileName_keptSection (room : Nat) (fileLevel : String) (moment : Moment)
    (suffix : List Char) :
    fileName room (keptSection fileLevel) moment suffix = .ok ("c2cs".toList ++ suffix) := by
  have hfill (texts : List (List Char × List Char)) :
      Template.fill room texts "c2cs.log".toList = .ok "c2cs.log".toList := by
    show Template.fillFields room texts 2 9 ['c', '2', 'c', 's', '.', 'l', 'o', 'g'] = _
    simp [Template.fillFields]
  show (do
    let name ← (Template.fill room [("timestamp".toList, _)] "c2cs.log".toList).mapError
      NameError.template
    return Path.dropSuffix name ++ suffix) = _
  rw [hfill]
  rfl

/-- A session in an empty directory, without terminals. -/
def loggingSession : Session := .start .bare ⟨[], []⟩

/-- The setup for such a section and a console that shows what an information is. -/
theorem setup_keptSection (fileLevel : String) (level : Level)
    (hwishes : wishes (.table [("logging", keptSection fileLevel)]) .null .null
      = .ok ⟨keptSection fileLevel, .number Level.info, level, .text "logs", true, true⟩) :
    ∃ t, setup (.table [("logging", keptSection fileLevel)]) .null .null loggingSession
      = .ok ⟨.number Level.info, level, some "/logs".toList, some "/logs/c2cs.log".toList,
          some "/logs/c2cs.jsonl".toList⟩ t := by
  unfold setup
  rw [hwishes]
  show ∃ t, (pure _ >>= _ : Action SetupError Settings) loggingSession = _
  rw [pure_bind]
  simp only [openLog, fileName_keptSection]
  exact ⟨_, rfl⟩

theorem records_routed_info :
    (∃ settings t, setup (.table [("logging", keptSection "DEBUG")]) .null .null loggingSession
        = .ok settings t ∧ settings.lowest ≠ 0
      ∧ ∀ logger message cause,
        t.journal.deliveries ⟨Level.info, logger, message, cause⟩ =
          [Sink.output false, .textFile ["logs".toList, "c2cs.log".toList],
            .jsonFile ["logs".toList, "c2cs.jsonl".toList]].map
              (·.deliver ⟨Level.info, logger, message, cause⟩))
      ∧ ∃ settings t, setup (.table [("logging", keptSection "NOTSET")]) .null .null loggingSession
          = .ok settings t ∧ settings.lowest = 0
        ∧ ∀ logger message cause,
          t.journal.deliveries ⟨Level.info, logger, message, cause⟩ = [] := by
  constructor
  · obtain ⟨t, ht⟩ := setup_keptSection "DEBUG" (.number Level.debug) rfl
    obtain ⟨w, -, -, hroutes, -⟩ := records_routed ht
    refine ⟨_, t, ht, by decide, fun logger message cause => ?_⟩
    rw [hroutes (by decide) _ (show 0 < Level.info by decide)]
    cases w.colour <;> rfl
  · obtain ⟨t, ht⟩ := setup_keptSection "NOTSET" (.number 0) rfl
    obtain ⟨w, -, -, -, hroutes, -⟩ := records_routed ht
    refine ⟨_, t, ht, by decide, fun logger message cause => ?_⟩
    rw [hroutes (by decide) _ (show 0 < Level.info by decide)]
    exact if_neg (show ¬ Level.warning ≤ Level.info by decide)

end Interop.Log
