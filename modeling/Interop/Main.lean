import Interop.Command.Paths
import Interop.Toml.Reader
import Std.Time.DateTime.Timestamp

/-!
# The program

Runs the command on the files of the machine: what lies at the places that the command can come to
look at is read first, the command runs on that, and what it changed is written.
-/

set_option autoImplicit false

open Interop

namespace Interop.Program

/-- What there is at a place. -/
def entryAt (place : Place) : IO (Option Entry) := do
  let path := (← IO.currentDir) / String.ofList (Path.placeText place)
  if ← path.isDir then return some .directory
  else if ← path.pathExists then return some (.file (← IO.FS.readBinFile path).data.toList)
  else return none

/-- A store with what lies on the way along paths. -/
def look (files : Store) (paths : List (List Char)) : IO Store := do
  let mut files := files
  for path in paths do
    if path.contains '\x00' then continue
    for place in (Path.ofText path).placesOn files.cwd do
      if (files.get? place).isNone then
        if let some entry ← entryAt place then
          files := files.set place entry
  return files

/-- Writes what a command changed. -/
def put (before after : Store) : IO Unit := do
  for (place, entry) in after.entries do
    if before.get? place != some entry then
      let path := (← IO.currentDir) / String.ofList (Path.placeText place)
      match entry with
      | .directory => IO.FS.createDirAll path
      | .file bytes => IO.FS.writeBinFile path ⟨bytes.toArray⟩

def environment? (name : String) : IO (Option (List Char)) := do
  return (← IO.getEnv name).map String.toList

/-- The lines of a file of the system; a file that is not there has none. -/
def systemLines (path : String) : IO (List (List Char)) := do
  try return (← IO.FS.lines path).toList.map String.toList
  catch _ => return []

/-- The number of the user that runs the program. -/
def userNumber? : IO (Option (List Char)) := do
  return (← systemLines "/proc/self/status").findSome? fun line =>
    match Text.splitOn '\t' line with
    | ['U', 'i', 'd', ':'] :: number :: _ => some number
    | _ => none

/-- Where home directories are.  The record has a line for each user, with colons between the name,
the number and the directory. -/
def homes : IO Homes := do
  let users := (← systemLines "/etc/passwd").filterMap fun line =>
    match Text.splitOn ':' line with
    | [name, _, number, _, _, home, _] => some (name, number, home)
    | _ => none
  let number ← userNumber?
  return {
    inherited := ← environment? "HOME"
    own := (users.find? fun user => some user.2.1 = number).map (·.2.2)
    named := users.map fun user => (user.1, user.2.2) }

def surroundings : IO Surroundings := do
  return {
    moment := .afterSeconds (← Std.Time.Timestamp.now).toSecondsSinceUnixEpoch.val.toNat
    homes := ← homes
    room := twoTo 63 - 1
    configPath := (← environment? "C2CS_CONFIG").getD []
    outputIsTerminal := ← (← IO.getStdout).isTty
    errorsIsTerminal := ← (← IO.getStderr).isTty }

/-- The files that a command starts with. -/
def initialFiles (surroundings : Surroundings) (arguments : List (List Char)) : IO Store := do
  let cwd := (Path.ofText (← IO.currentDir).toString.toList).names
  let empty : Store := ⟨cwd, []⟩
  match Command.readArguments arguments with
  | .error _ => return empty
  | .ok a =>
    let files ← look empty (Command.namedPaths a surroundings)
    look files (Command.logPaths Toml.read a (.start surroundings files))

/-- What a session printed and changed. -/
def finish (before : Store) (s : Session) : IO Unit := do
  put before s.files
  (← IO.getStdout).putStr (String.ofList s.output)
  (← IO.getStderr).putStr (String.ofList s.errors)

def run (arguments : List (List Char)) : IO UInt32 := do
  let surroundings ← surroundings
  let files ← initialFiles surroundings arguments
  match Command.program Toml.read arguments (.start surroundings files) with
  | .ok ending s =>
    finish files s
    return UInt32.ofNat ending.status
  | .error accident s =>
    finish files s
    (← IO.getStderr).putStrLn (String.ofList accident.message)
    return UInt32.ofNat Command.Ending.failure.status

end Interop.Program

def main (arguments : List String) : IO UInt32 :=
  Interop.Program.run (arguments.map String.toList)
