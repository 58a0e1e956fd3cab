import Interop.Log.FileName
import Interop.Session

/-!
# Setting up the journal

The logging section of a configuration says from which level on records are shown, and whether and
where they are kept in files.  A level and a directory given for one run count before those of the
section.

The console is set up before anything can go wrong with files, so an error of the latter still
reaches it.
-/

set_option autoImplicit false

namespace Interop.Log

/-- Why the journal cannot be set up. -/
inductive SetupError
  | fault (fault : Fault)
  | level (error : LevelError)
  /-- The directory is a value of this kind and no path. -/
  | directoryNotPath (kind : String)
  | name (error : NameError)
  | file (error : FileError)
deriving DecidableEq, Repr

def SetupError.message : SetupError → String
  | fault f => f.message
  | level e => e.message
  | directoryNotPath kind => "expected str, bytes or os.PathLike object, not " ++ kind
  | name e => e.message
  | file e => String.ofList e.message

/-- What the setup came to. -/
structure Settings where
  consoleLevel : Level
  fileLevel : Level
  directory : Option (List Char)
  textPath : Option (List Char)
  jsonPath : Option (List Char)
deriving DecidableEq, Repr

/-- What a logging section asks for, before anything is done about it. -/
structure Wishes where
  /-- The section itself. -/
  options : Value
  consoleLevel : Level
  fileLevel : Level
  /-- A value that counts as nothing means no files. -/
  directory : Value
  colour : Bool
  json : Bool
deriving Repr

/-- Reads a logging section; `level` and `directory` are those given for this run. -/
def wishes (config level directory : Value) : Except SetupError Wishes := do
  let options ← (Config.sectionOrEmpty config "logging").mapError .fault
  let get (key : String) (alternative : Value) :=
    (Config.getOr options key alternative).mapError SetupError.fault
  let consoleLevel ←
    (Level.ofValue (← get "console_level" .null) (.number Level.info)).mapError .level
  let consoleLevel ← (Level.ofValue level consoleLevel).mapError .level
  let fileLevel ← (Level.ofValue (← get "file_level" .null) (.number Level.debug)).mapError .level
  let standing ← get "dir" .null
  return {
    options, consoleLevel, fileLevel
    directory := if directory.isTruthy then directory else standing
    colour := (← get "color" (.bool true)).isTruthy
    json := (← get "jsonl" (.bool false)).isTruthy }

/-- The two handlers of the console. -/
def consoleHandlers (level : Level) (colour : Bool) (surroundings : Surroundings) :
    List Handler :=
  [⟨.output (colour && surroundings.outputIsTerminal), level⟩,
   ⟨.errors (colour && surroundings.errorsIsTerminal), level.atLeastError⟩]

open Session

/-- Replaces the handlers of the journal. -/
def setHandlers (handlers : List Handler) : Action SetupError Unit :=
  modify fun s => { s with journal := { s.journal with handlers } }

/-- Adds a handler to the journal. -/
def addHandler (handler : Handler) : Action SetupError Unit :=
  modify fun s =>
    { s with journal := { s.journal with handlers := s.journal.handlers ++ [handler] } }

def setLevel (level : Level) : Action SetupError Unit :=
  modify fun s => { s with journal := { s.journal with level } }

/-- Opens a log file in a directory, adds its handler, and gives its path. -/
def openLog (wishes : Wishes) (directory suffix : List Char) (sink : Place → Sink) :
    Action SetupError (List Char) := do
  let s ← get
  let name ← settle ((fileName s.surroundings.room wishes.options s.surroundings.moment
    suffix).mapError .name)
  let path := Path.join directory name
  let place ← change .file (Store.openToAppend (Path.absoluteText s.files.cwd path))
  addHandler ⟨sink place, wishes.fileLevel⟩
  return path

/-- Sets up the journal for a configuration. -/
def setup (config level directory : Value) : Action SetupError Settings := do
  let w ← settle (wishes config level directory)
  setHandlers (consoleHandlers w.consoleLevel w.colour (← get).surroundings)
  if !w.directory.isTruthy then
    setLevel w.consoleLevel
    return ⟨w.consoleLevel, w.fileLevel, none, none, none⟩
  match w.directory with
  | .text d =>
    let d := Path.absoluteText (← get).files.cwd d.toList
    change .file (Store.ensureDirectories d.length d)
    setLevel (w.consoleLevel.lower w.fileLevel)
    let textPath ← openLog w d ".log".toList .textFile
    let jsonPath ←
      if w.json then some <$> openLog w d ".jsonl".toList .jsonFile else pure none
    return ⟨w.consoleLevel, w.fileLevel, some d, some textPath, jsonPath⟩
  | v => throw (.directoryNotPath v.shortKindName)

end Interop.Log
