import Interop.Template.Kind

/-!
# Members

What belongs to the things of a kind is found by its name: operations, hooks, properties and
fields, and a few constants.  A hook is an operation that a notation stands for, such as taking an
item or a sum; what is told about a hook hangs on its name alone.
-/

set_option autoImplicit false

namespace Interop.Template

/-- A member of a kind.  What is told about a member is a list of lines; there may be none. -/
inductive Member
  | hook
  /-- What makes a thing of the kind. -/
  | maker
  | operation (signature : Option String) (about : List String)
  /-- An operation for the kind itself. -/
  | kindOperation (signature : Option String) (about : List String)
  /-- An operation that is for nothing in particular. -/
  | loose (signature : Option String) (about : List String)
  /-- A value that is computed. -/
  | property (about : List String)
  /-- A value that is stored. -/
  | field
  /-- Says that things of the kind lack what others have. -/
  | nothing
  | constant (lines : List String)
deriving DecidableEq, Repr

/-- Whether a member gives a value of the thing that it is asked of. -/
def Member.isData : Member → Bool
  | .property _ | .field => true
  | _ => false

/-- The hooks, each with its signature and what is told about it. -/
def hookTable : List (String × String × String) :=
  [
   ("__repr__", "($self, /)", "Return repr(self)."),
   ("__hash__", "($self, /)", "Return hash(self)."),
   ("__str__", "($self, /)", "Return str(self)."),
   ("__getattribute__", "($self, name, /)", "Return getattr(self, name)."),
   ("__lt__", "($self, value, /)", "Return self<value."),
   ("__le__", "($self, value, /)", "Return self<=value."),
   ("__eq__", "($self, value, /)", "Return self==value."),
   ("__ne__", "($self, value, /)", "Return self!=value."),
   ("__gt__", "($self, value, /)", "Return self>value."),
   ("__ge__", "($self, value, /)", "Return self>=value."),
   ("__iter__", "($self, /)", "Implement iter(self)."),
   ("__mod__", "($self, value, /)", "Return self%value."),
   ("__rmod__", "($self, value, /)", "Return value%self."),
   ("__len__", "($self, /)", "Return len(self)."),
   ("__getitem__", "($self, key, /)", "Return self[key]."),
   ("__add__", "($self, value, /)", "Return self+value."),
   ("__mul__", "($self, value, /)", "Return self*value."),
   ("__rmul__", "($self, value, /)", "Return value*self."),
   ("__contains__", "($self, key, /)", "Return key in self."),
   ("__setattr__", "($self, name, value, /)", "Implement setattr(self, name, value)."),
   ("__delattr__", "($self, name, /)", "Implement delattr(self, name)."),
   ("__init__", "($self, /, *args, **kwargs)",
     "Initialize self.  See help(type(self)) for accurate signature."),
   ("__call__", "($self, /, *args, **kwargs)", "Call self as a function."),
   ("__or__", "($self, value, /)", "Return self|value."),
   ("__ror__", "($self, value, /)", "Return value|self."),
   ("__get__", "($self, instance, owner=None, /)",
     "Return an attribute of instance, which is of type owner."),
   ("__set__", "($self, instance, value, /)", "Set an attribute of instance to value."),
   ("__delete__", "($self, instance, /)", "Delete an attribute of instance."),
   ("__bool__", "($self, /)", "True if self else False"),
   ("__radd__", "($self, value, /)", "Return value+self."),
   ("__sub__", "($self, value, /)", "Return self-value."),
   ("__rsub__", "($self, value, /)", "Return value-self."),
   ("__divmod__", "($self, value, /)", "Return divmod(self, value)."),
   ("__rdivmod__", "($self, value, /)", "Return divmod(value, self)."),
   ("__pow__", "($self, value, mod=None, /)", "Return pow(self, value, mod)."),
   ("__rpow__", "($self, value, mod=None, /)", "Return pow(value, self, mod)."),
   ("__neg__", "($self, /)", "-self"),
   ("__pos__", "($self, /)", "+self"),
   ("__abs__", "($self, /)", "abs(self)"),
   ("__invert__", "($self, /)", "~self"),
   ("__lshift__", "($self, value, /)", "Return self<<value."),
   ("__rlshift__", "($self, value, /)", "Return value<<self."),
   ("__rshift__", "($self, value, /)", "Return self>>value."),
   ("__rrshift__", "($self, value, /)", "Return value>>self."),
   ("__and__", "($self, value, /)", "Return self&value."),
   ("__rand__", "($self, value, /)", "Return value&self."),
   ("__xor__", "($self, value, /)", "Return self^value."),
   ("__rxor__", "($self, value, /)", "Return value^self."),
   ("__int__", "($self, /)", "int(self)"),
   ("__float__", "($self, /)", "float(self)"),
   ("__floordiv__", "($self, value, /)", "Return self//value."),
   ("__rfloordiv__", "($self, value, /)", "Return value//self."),
   ("__truediv__", "($self, value, /)", "Return self/value."),
   ("__rtruediv__", "($self, value, /)", "Return value/self."),
   ("__index__", "($self, /)",
     "Return self converted to an integer, if self is suitable for use as an index into a list."),
   ("__ior__", "($self, value, /)", "Return self|=value.")]

def makerSignature : String := "($type, *args, **kwargs)"

def makerAbout : String :=
  "Create and return a new object.  See help(type) for accurate signature."

/-- The signature of a member, where it is known. -/
def Member.signature? (m : Member) (name : String) : Option String :=
  match m with
  | .hook => (hookTable.lookup name).map Prod.fst
  | .maker => some makerSignature
  | .operation s _ | .kindOperation s _ | .loose s _ => s
  | _ => none

/-- What is told about a member. -/
def Member.about (m : Member) (name : String) : List String :=
  match m with
  | .hook => ((hookTable.lookup name).map Prod.snd).toList
  | .maker => [makerAbout]
  | .operation _ a | .kindOperation _ a | .loose _ a | .property a => a
  | _ => []

/-- Names with the members that they stand for, in order. -/
abbrev Roll := List (String × Member)

def hooks (names : List String) : Roll := names.map fun n => (n, .hook)

def fields (names : List String) : Roll := names.map fun n => (n, .field)

/-- Properties about which nothing is told. -/
def properties (names : List String) : Roll := names.map fun n => (n, .property [])

end Interop.Template
