import Interop.Value.Basic

/-!
# Layers of configuration

A user's configuration is laid over the default one.  Where both have a table the two are merged;
where one has a table and the other something else they do not fit together; anywhere else the
user's value counts.  The keys of the default come first, in its order, then the user's own.
-/

set_option autoImplicit false

namespace Interop.Config

open Value (Entries)

/-- A key under which one layer has a table and the other does not. -/
structure Mismatch where
  key : String
  userKind : String
  defaultKind : String
deriving DecidableEq, Repr

def Mismatch.message (m : Mismatch) : String :=
  "Type mismatch for key '" ++ m.key ++ "': config has <class '" ++ m.userKind
    ++ "'>, default_config has <class '" ++ m.defaultKind ++ "'>"

/-- The entries of a layer whose keys the other layer does not have. -/
def ownEntries (user base : Entries) : Entries :=
  user.filter fun e => (Value.lookup e.1 base).isNone

mutual

/-- The value of a key of the default layer, given what the user has there. -/
def mergeValue (key : String) (user : Option Value) : Value → Except Mismatch Value
  | .table base =>
    match user with
    | none => .ok (.table base)
    | some (.table entries) => do
      return .table ((← mergeEntries entries base) ++ ownEntries entries base)
    | some v => .error ⟨key, v.kindName, "dict"⟩
  | base =>
    match user with
    | none => .ok base
    | some (.table _) => .error ⟨key, "dict", base.kindName⟩
    | some v => .ok v

/-- The entries of the default layer, each merged with what the user has under its key. -/
def mergeEntries (user : Entries) : Entries → Except Mismatch Entries
  | [] => .ok []
  | (key, base) :: rest => do
    let v ← mergeValue key (Value.lookup key user) base
    return (key, v) :: (← mergeEntries user rest)

end

/-- The user's layer over the default one. -/
def merge (user base : Entries) : Except Mismatch Entries := do
  return (← mergeEntries user base) ++ ownEntries user base

end Interop.Config
