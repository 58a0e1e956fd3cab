import Interop.Command.Grammar
import Interop.Value.Basic

/-!
# The arguments of the program

The program has one command, `bindgen`.  In front of its name there is nothing but a request for
help; after it come the input file and the options of the command, in any order.  An argument that
nobody takes is put aside, and is an error only once everything else is in order.
-/

set_option autoImplicit false

namespace Interop.Command

/-- The options of the command. -/
inductive Key
  | help
  | output
  | config
  | libraryName
  | className
  | namespaceName
  | manifest
  | onError
  | jobs
  | logLevel
  | logDir
deriving DecidableEq, Repr

/-- What an option was given for a value.  A separator in the place of a value is dropped, and
nothing is left. -/
inductive Given
  | nothing
  | text (t : List Char)
deriving DecidableEq, Repr

def Given.text? : Given → Option (List Char)
  | nothing => none
  | text t => some t

/-- What is left of a value: an empty list of texts, or the one text. -/
def Given.toValue : Given → Value
  | nothing => .list []
  | text t => .text (String.ofList t)

/-- What the command was given.  Where an option without anything left counts as no option, there
is a text or none. -/
structure Arguments where
  input : List Char
  output : Given
  config : Option (List Char)
  libraryName : Option (List Char)
  className : Option (List Char)
  namespaceName : Option (List Char)
  manifest : Option Given
  onError : Option Given
  /-- The number of jobs, if there is one in the place for it. -/
  jobs : Option (Option Int)
  logLevel : Option Given
  logDir : Option (List Char)
deriving DecidableEq, Repr

/-- What the command was given so far. -/
structure Draft where
  input : Option (List Char)
  jobs : Option (Option Int)
  /-- The values of the other options; the last one of an option counts. -/
  values : List (Key × Given)
  /-- The arguments that nobody took. -/
  left : List (List Char)
deriving DecidableEq, Repr

def Draft.empty : Draft := ⟨none, none, [], []⟩

def Draft.value? (d : Draft) (key : Key) : Option Given :=
  (d.values.find? (·.1 = key)).map (·.2)

def Draft.text? (d : Draft) (key : Key) : Option (List Char) := (d.value? key).bind Given.text?

def helpForm {κ : Type} (key : κ) : OptionForm κ := ⟨key, ["-h".toList, "--help".toList], false⟩

def valueForm (key : Key) (names : List String) : OptionForm Key :=
  ⟨key, names.map String.toList, true⟩

def outputForm : OptionForm Key := valueForm .output ["--output", "-o"]

def jobsForm : OptionForm Key := valueForm .jobs ["--jobs", "-j"]

def onErrorForm : OptionForm Key := valueForm .onError ["--on-error"]

/-- The options of the command, in the order in which they are listed. -/
def forms : List (OptionForm Key) :=
  [helpForm .help, outputForm,
   valueForm .config ["--config", "-c"],
   valueForm .libraryName ["--library-name", "-l"],
   valueForm .className ["--class-name"],
   valueForm .namespaceName ["--namespace", "-n"],
   valueForm .manifest ["--manifest", "-m"],
   onErrorForm, jobsForm,
   valueForm .logLevel ["--log-level"],
   valueForm .logDir ["--log-dir"]]

/-- What a header that cannot be bound as a whole may lead to. -/
def policies : List (List Char) := ["abort".toList, "skip".toList]

def Draft.put (d : Draft) (key : Key) (value : Given) : Draft :=
  { d with values := (key, value) :: d.values }

/-- Gives an option its value. -/
def Draft.set (d : Draft) (form : OptionForm Key) (value : List Char) : Except UsageError Draft :=
  if value = ['-', '-'] then
    .ok (if form.key = .jobs then { d with jobs := some none } else d.put form.key .nothing)
  else match form.key with
    | .jobs =>
      match Text.readInteger? value with
      | .ok (some n) => .ok { d with jobs := some (some n) }
      | _ => .error (.notAnInteger form.title value)
    | .onError =>
      if policies.contains value then .ok (d.put .onError (.text value))
      else .error (.notAChoice form.title value policies)
    | key => .ok (d.put key (.text value))

def Draft.leave (d : Draft) (ts : List (List Char)) : Draft := { d with left := d.left ++ ts }

/-- Takes the words after the last option.  The first value is the input file if there is none
yet; separators around it are dropped. -/
def Draft.finish (d : Draft) (ws : List (Word Key)) : Draft :=
  match d.input, ws with
  | none, .separator :: .value t :: rest => { d with input := some t }.leave (rest.map Word.text)
  | none, .value t :: .separator :: rest => { d with input := some t }.leave (rest.map Word.text)
  | none, .value t :: rest => { d with input := some t }.leave (rest.map Word.text)
  | _, ws => d.leave (ws.map Word.text)

/-- Takes words in order. -/
def Draft.take (d : Draft) : List (Word Key) → Except Stop Draft
  | [] => .ok d
  | .option form name attached text :: rest =>
    match form.takesValue, attached, rest with
    | true, some a, rest => do (← (d.set form a).mapError .usage).take rest
    | true, none, .value t :: rest => do (← (d.set form t).mapError .usage).take rest
    | true, none, _ => .error (.usage (.expectedValue form.title))
    | false, attached, rest =>
      match checkAttached forms rest.head? (text.length + 1) form name attached with
      | .ok () => .error .help
      | .error e => .error (.usage e)
  | .unknown t :: rest => (d.leave [t]).take rest
  | w :: rest =>
    if rest.any (·.isOption) then
      match d.input with
      | none => { d with input := some w.text }.take rest
      | some _ => (d.leave [w.text]).take rest
    else .ok (d.finish (w :: rest))

/-- The name of the input file in messages. -/
def inputTitle : List Char := "input_file".toList

/-- The arguments of the command, and those that nobody took. -/
def Draft.arguments (d : Draft) : Except Stop (Arguments × List (List Char)) :=
  match d.input, d.value? .output with
  | some input, some output =>
    .ok ({
      input, output
      config := d.text? .config
      libraryName := d.text? .libraryName
      className := d.text? .className
      namespaceName := d.text? .namespaceName
      manifest := d.value? .manifest
      onError := d.value? .onError
      jobs := d.jobs
      logLevel := d.value? .logLevel
      logDir := d.text? .logDir }, d.left)
  | input, output =>
    .error (.usage (.missing ((if input.isNone then [inputTitle] else [])
      ++ (if output.isNone then [outputForm.title] else []))))

/-- Reads the arguments of the command. -/
def commandArguments (ts : List (List Char)) : Except Stop (Arguments × List (List Char)) := do
  let ws ← (words forms ts).mapError .usage
  (← Draft.take .empty ws).arguments

/-! ## The program -/

def programName : List Char := "c2cs".toList

def commandName : List Char := "bindgen".toList

def commandTitle : List Char := "subcommand".toList

/-- Why the arguments of the program give nothing to do: `inside` if the command found out. -/
structure Refusal where
  inside : Bool
  stop : Stop
deriving DecidableEq, Repr

/-- The options in front of the command. -/
def outerForms : List (OptionForm Unit) := [helpForm ()]

/-- Runs through the words in front of the command; `left` are those that nobody took. -/
def findCommand (left : List (List Char)) : List (Word Unit) → Except Refusal Arguments
  | [] => .error ⟨false, .usage (.missing [commandTitle])⟩
  | .unknown t :: rest => findCommand (left ++ [t]) rest
  | .option form name attached text :: rest =>
    match checkAttached outerForms rest.head? (text.length + 1) form name attached with
    | .ok () => .error ⟨false, .help⟩
    | .error e => .error ⟨false, .usage e⟩
  | [.separator] => .error ⟨false, .usage (.missing [commandTitle])⟩
  | w :: rest =>
    if w.text ≠ commandName then
      .error ⟨false, .usage (.notAChoice commandTitle w.text [commandName])⟩
    else match commandArguments (rest.map Word.text) with
      | .error stop => .error ⟨true, stop⟩
      | .ok (a, leftInside) =>
        match left ++ leftInside with
        | [] => .ok a
        | left => .error ⟨false, .usage (.unrecognized left)⟩

/-- Reads the arguments of the program. -/
def readArguments (ts : List (List Char)) : Except Refusal Arguments :=
  match words outerForms ts with
  | .error e => .error ⟨false, .usage e⟩
  | .ok ws => findCommand [] ws

/-- The program or the command, as messages call it. -/
def Refusal.speaker (r : Refusal) : List Char :=
  if r.inside then programName ++ ' ' :: commandName else programName

/-- The line that is shown for a refusal; a request for help is none. -/
def Refusal.message? (r : Refusal) : Option (List Char) :=
  match r.stop with
  | .help => none
  | .usage e => some (r.speaker ++ ": error: ".toList ++ e.message)

end Interop.Command
