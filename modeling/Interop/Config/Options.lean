import Interop.Binding.Lowering
import Interop.Text.Digits

/-!
# Options of a configuration

A configuration is a table of sections, or nothing at all.  A section that is missing is empty; a
section that is no table is a fault as soon as something is looked up in it.  Options are used as
they are: apart from the error policy and the number of workers nothing is checked when it is
read.
-/

set_option autoImplicit false

namespace Interop.Config

open Value (Entries)

/-- Why a configuration cannot be used. -/
inductive ConfigError
  | fault (fault : Fault)
  | invalidPolicy (policy : Value)
  | usingsNotAList
deriving Repr

/-! ## Sections -/

/-- What a value has under a key; only a table has anything. -/
def get? (v : Value) (key : String) : Except Fault (Option Value) :=
  match v with
  | .table entries => .ok (Value.lookup key entries)
  | v => .error (.lacks v.kindName "get")

/-- What a value has under a key, or else something given. -/
def getOr (v : Value) (key : String) (alternative : Value) : Except Fault Value := do
  return (← get? v key).getD alternative

/-- A section, which may be any value; a missing one is an empty table. -/
def sectionOf (config : Value) (name : String) : Except Fault Value := getOr config name (.table [])

/-- A section of a configuration that may be nothing. -/
def sectionOrEmpty (config : Value) (name : String) : Except Fault Value :=
  if config.isTruthy then sectionOf config name else .ok (.table [])

/-- A configuration with one option of a section set for this run. -/
def override (name key : String) (value : Value) : Value.Entries → Value.Entries
  | [] => []
  | (k, .table entries) :: rest =>
    if k = name then (k, .table (Value.insert key value entries)) :: rest
    else (k, .table entries) :: override name key value rest
  | e :: rest => e :: override name key value rest

/-! ## Values -/

/-- A value as an integer: truncated if it is a double, read if it is a text. -/
def toInteger (v : Value) : Except Fault Int :=
  match v with
  | .bool b => .ok (if b then 1 else 0)
  | .number n => n.truncate.mapError .number
  | .text s =>
    match Text.readInteger? s.toList with
    | .ok (some n) => .ok n
    | .ok none => .error (.notANumeral s)
    | .error fault => .error (.number fault)
  | v => .error (.notAnInteger v.kindName)

/-- What to do with a header some of whose declarations cannot be bound. -/
inductive Policy
  | abort
  | skip
deriving DecidableEq, Repr

/-- The policy of a configuration; without one, it is to abort. -/
def policy (config : Value) : Except ConfigError Policy := do
  let bindgen ← (sectionOf config "bindgen").mapError .fault
  match ← (getOr bindgen "on_error" (.text "abort")).mapError .fault with
  | .text "abort" => return .abort
  | .text "skip" => return .skip
  | v => throw (.invalidPolicy v)

/-- The options for lowering. -/
def loweringOptions (config : Value) : Except Fault Binding.Options := do
  let mapping ← sectionOrEmpty config "mapping"
  let booleanTypeName ←
    getOr mapping "boolean_type_name" (.text Binding.defaultBooleanTypeName)
  let validateLayout ← getOr mapping "validate_layout" (.bool false)
  let workers ← toInteger (← getOr mapping "max_workers" (.int 1))
  return { Binding.Options.default with
    booleanTypeName
    validateLayout := validateLayout.isTruthy
    workers := max 1 workers }

/-- Checks what a run would stumble over later. -/
def check (config : Value) : Except ConfigError Unit := do
  let _ ← policy config
  let _ ← (loweringOptions config).mapError .fault
  let bindgen ← (sectionOf config "bindgen").mapError .fault
  match ← (getOr bindgen "usings" (.list [])).mapError .fault with
  | .list _ => return
  | _ => throw .usingsNotAList

def ConfigError.message : ConfigError → Except NumberFault String
  | fault f => .ok f.message
  | invalidPolicy v => do
    return String.ofList ("Invalid bindgen.on_error value: ".toList ++ (← v.quotedText)
      ++ ", expected one of ('abort', 'skip')".toList)
  | usingsNotAList => .ok "bindgen.usings must be a list of namespaces"

end Interop.Config
