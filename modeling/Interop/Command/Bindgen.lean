import Interop.Command.Arguments
import Interop.Command.Report

/-!
# The command

The command prepares the configuration, sets up the journal, carries out the request and says how
it went.  It ends in one of three ways: well, with a report of what went wrong, or with a note on
how it is used.  An accident ends it in none of these ways, and is left to whoever runs it.

Arguments, variables and names of files are texts; bytes that spell no characters are not met with.
Nor are the limits of the machine on depth and on memory, but for the room for a single text
(`Surroundings.room`).
-/

set_option autoImplicit false

namespace Interop.Command

open Session

/-- How the program ends. -/
inductive Ending
  | success
  | failure
  | misuse
deriving DecidableEq, Repr

/-- The number that an ending is told by. -/
def Ending.status : Ending → Nat
  | success => 0
  | failure => 1
  | misuse => 2

/-- What nobody reports. -/
inductive Accident
  | load (error : Config.LoadError)
  | config (error : Config.ConfigError)
  | setup (error : Log.SetupError)
  | run (error : Generation.RunError)
  /-- There is no number of jobs in the place for it. -/
  | jobsNotGiven
deriving Repr

def Accident.message : Accident → List Char
  | load e => e.message.toList
  | config e => Generation.textOrFault e.message
  | setup e => e.message.toList
  | run e => e.message
  | jobsNotGiven => "'<' not supported between instances of 'list' and 'int'".toList

/-- Why the configuration cannot be prepared. -/
inductive PrepareError
  | load (error : Config.LoadError)
  | config (error : Config.ConfigError)
  | setup (error : Log.SetupError)
deriving Repr

def PrepareError.accident : PrepareError → Accident
  | load e => .load e
  | config e => .config e
  | setup e => .setup e

/-- What is reported about a configuration that cannot be prepared. -/
def PrepareError.report? : PrepareError → Option (List Char)
  | load e => if e.isMistake then some e.message.toList else none
  | config (.fault f) => if f.isMistake then some f.message.toList else none
  | config e => some (Generation.textOrFault e.message)
  | setup e => if e.isMistake then some e.message.toList else none

/-! ## Preparing -/

def textOrNull : Option (List Char) → Value
  | some t => .text (String.ofList t)
  | none => .null

/-- The level that the arguments give, or null. -/
def Arguments.levelValue (a : Arguments) : Value := (a.logLevel.map Given.toValue).getD .null

/-- Where the configuration of a run may come from. -/
def sources (a : Arguments) (s : Surroundings) : Config.Sources :=
  { given := a.config.getD [], inherited := s.configPath, homes := s.homes }

/-- The configuration with the options of this run. -/
def withArguments (a : Arguments) (config : Value.Entries) : Value.Entries :=
  let config := match a.onError with
    | some policy => Config.override "bindgen" "on_error" policy.toValue config
    | none => config
  match a.jobs.join with
  | some n => Config.override "mapping" "max_workers" (.int n) config
  | none => config

/-- Loads and checks the configuration. -/
def loadConfig (toml : Toml.Reader) (a : Arguments) (s : Session) : Except PrepareError Value := do
  let loaded ← (Config.load toml s.files (sources a s.surroundings)).mapError .load
  let config := Value.table (withArguments a loaded)
  (Config.check config).mapError .config
  return config

/-- Loads the configuration and sets up the journal. -/
def prepare (toml : Toml.Reader) (a : Arguments) : Action PrepareError Value := do
  let config ← settle (loadConfig toml a (← get))
  let setup := Log.setup config a.levelValue (textOrNull a.logDir)
  let _ ← fun s => match setup s with
    | .ok settings s => .ok settings s
    | .error e s => .error (PrepareError.setup e) s
  return config

/-! ## Reporting -/

/-- Logs an error of the command. -/
def logError (message : String) (text : List Char) (s : Session) : Session :=
  s.remark ⟨Log.Level.error, "__main__", message, [.text (String.ofList text)]⟩

/-- Goes on after an action, or reports why it failed. -/
def orReport {ε α : Type} (action : Action ε α) (message : String)
    (report? : ε → Option (List Char)) (accident : ε → Accident)
    (next : α → Action Accident Ending) : Action Accident Ending := fun s =>
  match action s with
  | .ok a s => next a s
  | .error e s =>
    match report? e with
    | some text => .ok .failure (logError message text s)
    | none => .error (accident e) s

/-! ## Running -/

/-- The request that the arguments make.  Paths that are not given come to light where they are
compared with the others: the output after the input, and the manifest after both. -/
def request (a : Arguments) (cwd : Place) : Except Generation.PathError Generation.Request := do
  let names : Generation.Names :=
    ⟨textOrNull a.libraryName, textOrNull a.className, textOrNull a.namespaceName⟩
  match a.output with
  | .nothing =>
    let _ ← Generation.placeOf cwd a.input
    throw .notGiven
  | .text output =>
    let r : Generation.Request := ⟨a.input, output, names, none⟩
    match a.manifest with
    | none => return r
    | some (.text manifest) => return { r with manifest := some manifest }
    | some .nothing =>
      r.checkPaths cwd none
      throw .notGiven

/-- Makes the request of the arguments and carries it out. -/
def generate (a : Arguments) (config : Value) :
    Action Generation.RunError Generation.Response := do
  Generation.run (← settle ((request a (← get).files.cwd).mapError .path)) config

/-- Says what a run came to. -/
def announce (r : Generation.Response) (s : Session) : Session :=
  let s := s.print ("Generated ".toList ++ Nat.toDigits 10 r.declaredNames.length
    ++ " declarations into ".toList ++ r.output ++ ['\n'])
  match r.failures with
  | [] => s
  | failures => s.complain ("Skipped ".toList ++ Nat.toDigits 10 failures.length
      ++ " declarations\n".toList)

/-- What is said about the use of the program. -/
def usage : List Char :=
  "usage: c2cs bindgen [-h] --output OUTPUT [--config CONFIG] [--library-name NAME]\n".toList
    ++ "       [--class-name NAME] [--namespace NAME] [--manifest FILE]\n".toList
    ++ "       [--on-error abort|skip] [--jobs N] [--log-level LEVEL] [--log-dir DIR]\n".toList
    ++ "       input_file\n".toList

/-- Turns down arguments, or gives the help that was asked for. -/
def turnDown (r : Refusal) : Action Accident Ending := fun s =>
  match r.message? with
  | none => .ok .success (s.print usage)
  | some message => .ok .misuse (s.complain (usage ++ message ++ ['\n']))

/-- Carries out the command. -/
def bindgen (toml : Toml.Reader) (a : Arguments) : Action Accident Ending :=
  if a.jobs = some none then throw .jobsNotGiven
  else if a.jobs.join.any (· < 1) then turnDown ⟨false, .usage .tooFewJobs⟩
  else
    orReport (prepare toml a) "Invalid configuration: %s" PrepareError.report? PrepareError.accident
      fun config =>
        orReport (generate a config) "%s" Generation.RunError.report? .run
          fun response s => .ok .success (announce response s)

/-- The program, given its arguments. -/
def program (toml : Toml.Reader) (arguments : List (List Char)) : Action Accident Ending :=
  match readArguments arguments with
  | .ok a => bindgen toml a
  | .error r => turnDown r

end Interop.Command
