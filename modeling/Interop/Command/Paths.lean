import Interop.Command.Bindgen

/-!
# The files of a command

Which paths the command can come to look at.  Those of the arguments and of the configuration file
are known from the start; those of the log files only once the configuration is loaded.
-/

set_option autoImplicit false

namespace Interop

/-- A place and all that lie above it, the top first. -/
def placesAbove (place : Place) : List Place :=
  (List.range (place.length + 1)).map place.take

/-- The places on the way along a path, each with all that lie above it. -/
def Path.placesOn (cwd : Place) (p : Path) : List Place :=
  let start := if p.anchor = .here then cwd else []
  (p.names.foldl (fun (ps : List Place × Place) name =>
    let next := Path.step ps.2 name
    (ps.1 ++ placesAbove next, next)) (placesAbove start, start)).1

namespace Command

/-- The paths that the arguments and the surroundings name. -/
def namedPaths (a : Arguments) (s : Surroundings) : List (List Char) :=
  let config := [a.config.getD [], s.configPath].filterMap fun path =>
    ((Path.ofText path).expandHome? s.homes).map Path.toText
  let output := a.output.text?.toList
  [a.input, Config.fileName] ++ output ++ config ++ (a.manifest.bind Given.text?).toList
    ++ output.filterMap fun path => (Generation.manifestBeside path).toOption

/-- The paths of the log files. -/
def logPaths (toml : Toml.Reader) (a : Arguments) (s : Session) : List (List Char) :=
  match loadConfig toml a s with
  | .error _ => []
  | .ok config =>
    match Log.wishes config a.levelValue (textOrNull a.logDir) with
    | .error _ => []
    | .ok w =>
      match w.directory with
      | .text d =>
        let directory := Path.absoluteText s.files.cwd d.toList
        directory :: [".log", ".jsonl"].filterMap fun suffix =>
          let name := Log.fileName s.surroundings.room w.options s.surroundings.moment suffix.toList
          name.toOption.map fun name => Path.absoluteText s.files.cwd (Path.join directory name)
      | _ => []

end Command

end Interop
