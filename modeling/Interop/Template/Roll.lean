import Interop.Template.TextRoll

/-!
# Members of all kinds

The members of each kind, in their order.  A name is looked up along the lineage of a kind: what a
kind has itself comes before what it has in common with others.
-/

set_option autoImplicit false

namespace Interop.Template

/-- The members that all things have. -/
def anythingMembers : Roll :=
  [("__new__", .maker)] ++
  hooks ["__repr__", "__hash__", "__str__", "__getattribute__", "__setattr__", "__delattr__",
    "__lt__", "__le__", "__eq__", "__ne__", "__gt__", "__ge__", "__init__"] ++ [
    ("__reduce_ex__", .operation (some "($self, protocol, /)") ["Helper for pickle."]),
    ("__reduce__", .operation (some "($self, /)") ["Helper for pickle."]),
    ("__getstate__", .operation (some "($self, /)") ["Helper for pickle."]),
    ("__subclasshook__", .kindOperation none
        ["Abstract classes can override this to customize issubclass().",
         "",
         "This is invoked early on by abc.ABCMeta.__subclasscheck__().",
         "It should return True, False or NotImplemented.  If it returns",
         "NotImplemented, the normal algorithm is used.  Otherwise, it",
         "overrides the normal algorithm (and the outcome is cached).",
         ""]),
    ("__init_subclass__", .kindOperation none
        ["This method is called when a class is subclassed.",
         "",
         "The default implementation does nothing. It may be",
         "overridden to extend subclasses.",
         ""]),
    ("__format__", .operation (some "($self, format_spec, /)") ["Default object formatter."]),
    ("__sizeof__", .operation (some "($self, /)") ["Size of object in memory, in bytes."]),
    ("__dir__", .operation (some "($self, /)") ["Default dir() implementation."]),
    ("__class__", .property ["the object's class"]),
    ("__doc__", .constant
        ["The base class of the class hierarchy.",
         "",
         "When called, it accepts no arguments and returns a new featureless",
         "instance that has no instance attributes and cannot be given any.",
         ""])]

/-- The members of kinds. -/
def kindMembers : Roll :=
  [("__new__", .maker)] ++
  hooks ["__repr__", "__call__", "__getattribute__", "__setattr__", "__delattr__", "__init__",
    "__or__", "__ror__"] ++ [
    ("mro", .operation (some "($self, /)") ["Return a type's method resolution order."]),
    ("__subclasses__", .operation (some "($self, /)") ["Return a list of immediate subclasses."]),
    ("__prepare__", .kindOperation none
        ["__prepare__() -> dict",
         "used to create the namespace for the class statement"]),
    ("__instancecheck__", .operation (some "($self, instance, /)")
        ["Check if an object is an instance."]),
    ("__subclasscheck__", .operation (some "($self, subclass, /)")
        ["Check if a class is a subclass."]),
    ("__dir__", .operation (some "($self, /)") ["Specialized __dir__ implementation for types."]),
    ("__sizeof__", .operation (some "($self, /)")
        ["Return memory consumption of the type object."])] ++
  fields ["__basicsize__", "__itemsize__", "__flags__", "__weakrefoffset__", "__base__",
    "__dictoffset__", "__mro__"] ++
  properties ["__name__", "__qualname__", "__bases__", "__module__", "__abstractmethods__",
    "__dict__", "__doc__", "__text_signature__", "__annotations__"]

/-- The members of operations that are bound to a thing. -/
def operationMembers : Roll :=
  hooks ["__repr__", "__hash__", "__call__", "__getattribute__", "__lt__", "__le__", "__eq__",
    "__ne__", "__gt__", "__ge__"] ++
  [("__reduce__", .operation none [])] ++
  fields ["__module__"] ++
  properties ["__doc__", "__name__", "__qualname__", "__self__", "__text_signature__"]

/-- The members of hooks that are bound to a thing. -/
def boundHookMembers : Roll :=
  hooks ["__repr__", "__hash__", "__call__", "__getattribute__", "__lt__", "__le__", "__eq__",
    "__ne__", "__gt__", "__ge__"] ++
  [("__reduce__", .operation none [])] ++
  fields ["__self__"] ++
  properties ["__objclass__", "__name__", "__qualname__", "__doc__", "__text_signature__"]

/-- The members of operations for any thing of a kind. -/
def methodMembers : Roll :=
  hooks ["__repr__", "__call__", "__getattribute__", "__get__"] ++
  [("__reduce__", .operation none [])] ++
  fields ["__objclass__", "__name__"] ++
  properties ["__doc__", "__qualname__", "__text_signature__"]

/-- The members of hooks. -/
def hookMembers : Roll :=
  hooks ["__repr__", "__call__", "__getattribute__", "__get__"] ++
  [("__reduce__", .operation none [])] ++
  fields ["__objclass__", "__name__"] ++
  properties ["__doc__", "__qualname__", "__text_signature__"]

/-- The members of operations for a kind. -/
def kindMethodMembers : Roll :=
  hooks ["__repr__", "__call__", "__getattribute__", "__get__"] ++
  fields ["__objclass__", "__name__"] ++
  properties ["__doc__", "__qualname__", "__text_signature__"]

/-- The members of properties. -/
def propertyMembers : Roll :=
  hooks ["__repr__", "__getattribute__", "__get__", "__set__", "__delete__"] ++
  fields ["__objclass__", "__name__"] ++
  properties ["__doc__", "__qualname__"]

/-- The members of fields. -/
def fieldMembers : Roll :=
  hooks ["__repr__", "__getattribute__", "__get__", "__set__", "__delete__"] ++
  [("__reduce__", .operation none [])] ++
  fields ["__objclass__", "__name__"] ++
  properties ["__doc__", "__qualname__"]

/-- The members of operations that are for nothing in particular. -/
def looseMembers : Roll :=
  [("__new__", .maker)] ++
  hooks ["__repr__", "__call__", "__get__", "__init__"] ++
  fields ["__func__", "__wrapped__"] ++
  properties ["__isabstractmethod__", "__dict__"] ++ [
    ("__doc__", .constant
        ["staticmethod(function) -> method",
         "",
         "Convert a function to be a static method.",
         "",
         "A static method does not receive an implicit first argument.",
         "To declare a static method, use this idiom:",
         "",
         "     class C:",
         "         @staticmethod",
         "         def f(arg1, arg2, argN):",
         "             ...",
         "",
         "It can be called either on the class (e.g. C.f()) or on an instance",
         "(e.g. C().f()). Both the class and the instance are ignored, and",
         "neither is passed implicitly as the first argument to the method."])]

/-- The members of what stands for nothing. -/
def nothingMembers : Roll :=
  [("__new__", .maker)] ++
  hooks ["__repr__", "__bool__"] ++
  [("__doc__", .nothing)]

/-- The members of integers. -/
def integerMembers : Roll :=
  [("__new__", .maker)] ++
  hooks ["__repr__", "__hash__", "__getattribute__", "__lt__", "__le__", "__eq__", "__ne__",
    "__gt__", "__ge__", "__add__", "__radd__", "__sub__", "__rsub__", "__mul__", "__rmul__",
    "__mod__", "__rmod__", "__divmod__", "__rdivmod__", "__pow__", "__rpow__", "__neg__",
    "__pos__", "__abs__", "__bool__", "__invert__", "__lshift__", "__rlshift__",
    "__rshift__", "__rrshift__", "__and__", "__rand__", "__xor__", "__rxor__", "__or__",
    "__ror__", "__int__", "__float__", "__floordiv__", "__rfloordiv__", "__truediv__",
    "__rtruediv__", "__index__"] ++ [
    ("conjugate", .operation none ["Returns self, the complex conjugate of any int."]),
    ("bit_length", .operation (some "($self, /)")
        ["Number of bits necessary to represent self in binary.",
         "",
         ">>> bin(37)",
         "'0b100101'",
         ">>> (37).bit_length()",
         "6"]),
    ("bit_count", .operation (some "($self, /)")
        ["Number of ones in the binary representation of the absolute value of self.",
         "",
         "Also known as the population count.",
         "",
         ">>> bin(13)",
         "'0b1101'",
         ">>> (13).bit_count()",
         "3"]),
    ("to_bytes", .operation (some "($self, /, length=1, byteorder='big', *, signed=False)")
        ["Return an array of bytes representing an integer.",
         "",
         "  length",
         "    Length of bytes object to use.  An OverflowError is raised if the",
         "    integer is not representable with the given number of bytes.  Default",
         "    is length 1.",
         "  byteorder",
         "    The byte order used to represent the integer.  If byteorder is 'big',",
         "    the most significant byte is at the beginning of the byte array.  If",
         "    byteorder is 'little', the most significant byte is at the end of the",
         "    byte array.  To request the native byte order of the host system, use",
         "    `sys.byteorder' as the byte order value.  Default is to use 'big'.",
         "  signed",
         "    Determines whether two's complement is used to represent the integer.",
         "    If signed is False and a negative integer is given, an OverflowError",
         "    is raised."]),
    ("from_bytes", .kindOperation (some "($type, /, bytes, byteorder='big', *, signed=False)")
        ["Return the integer represented by the given array of bytes.",
         "",
         "  bytes",
         "    Holds the array of bytes to convert.  The argument must either",
         "    support the buffer protocol or be an iterable object producing bytes.",
         "    Bytes and bytearray are examples of built-in objects that support the",
         "    buffer protocol.",
         "  byteorder",
         "    The byte order used to represent the integer.  If byteorder is 'big',",
         "    the most significant byte is at the beginning of the byte array.  If",
         "    byteorder is 'little', the most significant byte is at the end of the",
         "    byte array.  To request the native byte order of the host system, use",
         "    `sys.byteorder' as the byte order value.  Default is to use 'big'.",
         "  signed",
         "    Indicates whether two's complement is used to represent the integer."]),
    ("as_integer_ratio", .operation (some "($self, /)")
        ["Return integer ratio.",
         "",
         "Return a pair of integers, whose ratio is exactly equal to the original int",
         "and with a positive denominator.",
         "",
         ">>> (10).as_integer_ratio()",
         "(10, 1)",
         ">>> (-10).as_integer_ratio()",
         "(-10, 1)",
         ">>> (0).as_integer_ratio()",
         "(0, 1)"]),
    ("__trunc__", .operation none ["Truncating an Integral returns itself."]),
    ("__floor__", .operation none ["Flooring an Integral returns itself."]),
    ("__ceil__", .operation none ["Ceiling of an Integral returns itself."]),
    ("__round__", .operation (some "($self, ndigits=<unrepresentable>, /)")
        ["Rounding an Integral returns itself.",
         "",
         "Rounding with an ndigits argument also returns an integer."]),
    ("__getnewargs__", .operation (some "($self, /)") []),
    ("__format__", .operation (some "($self, format_spec, /)") []),
    ("__sizeof__", .operation (some "($self, /)") ["Returns size in memory, in bytes."]),
    ("real", .property ["the real part of a complex number"]),
    ("imag", .property ["the imaginary part of a complex number"]),
    ("numerator", .property ["the numerator of a rational number in lowest terms"]),
    ("denominator", .property ["the denominator of a rational number in lowest terms"]),
    ("__doc__", .constant
        ["int([x]) -> integer",
         "int(x, base=10) -> integer",
         "",
         "Convert a number or string to an integer, or return 0 if no arguments",
         "are given.  If x is a number, return x.__int__().  For floating point",
         "numbers, this truncates towards zero.",
         "",
         "If x is not a number or if base is given, then x must be a string,",
         "bytes, or bytearray instance representing an integer literal in the",
         "given base.  The literal can be preceded by '+' or '-' and be surrounded",
         "by whitespace.  The base defaults to 10.  Valid bases are 0 and 2-36.",
         "Base 0 means to interpret the base from the string as an integer literal.",
         ">>> int('0b100', base=0)",
         "4"])]

/-- The members of truth values, besides those of integers. -/
def truthMembers : Roll :=
  [("__new__", .maker)] ++
  hooks ["__repr__", "__and__", "__rand__", "__xor__", "__rxor__", "__or__", "__ror__"] ++ [
    ("__doc__", .constant
        ["bool(x) -> bool",
         "",
         "Returns True when the argument x is true, False otherwise.",
         "The builtins True and False are the only two instances of the class bool.",
         "The class bool is a subclass of the class int, and cannot be subclassed."])]

/-- The members of tuples. -/
def tupleMembers : Roll :=
  [("__new__", .maker)] ++
  hooks ["__repr__", "__hash__", "__getattribute__", "__lt__", "__le__", "__eq__", "__ne__",
    "__gt__", "__ge__", "__iter__", "__len__", "__getitem__", "__add__", "__mul__",
    "__rmul__", "__contains__"] ++ [
    ("__getnewargs__", .operation (some "($self, /)") []),
    ("index", .operation (some "($self, value, start=0, stop=sys.maxsize, /)")
        ["Return first index of value.",
         "",
         "Raises ValueError if the value is not present."]),
    ("count", .operation (some "($self, value, /)") ["Return number of occurrences of value."]),
    ("__class_getitem__", .kindOperation none []),
    ("__doc__", .constant
        ["Built-in immutable sequence.",
         "",
         "If no argument is given, the constructor returns an empty tuple.",
         "If iterable is specified the tuple is initialized from iterable's items.",
         "",
         "If the argument is a tuple, the return value is the same object."])]

/-- The members of the members of a kind. -/
def membersMembers : Roll :=
  [("__new__", .maker)] ++
  hooks ["__repr__", "__str__", "__getattribute__", "__lt__", "__le__", "__eq__", "__ne__",
    "__gt__", "__ge__", "__iter__", "__or__", "__ror__", "__ior__", "__len__",
    "__getitem__", "__contains__"] ++ [
    ("get", .operation none ["D.get(k[,d]) -> D[k] if k in D, else d.  d defaults to None."]),
    ("keys", .operation none ["D.keys() -> a set-like object providing a view on D's keys"]),
    ("values", .operation none ["D.values() -> an object providing a view on D's values"]),
    ("items", .operation none ["D.items() -> a set-like object providing a view on D's items"]),
    ("copy", .operation none ["D.copy() -> a shallow copy of D"]),
    ("__class_getitem__", .kindOperation none []),
    ("__reversed__", .operation none ["D.__reversed__() -> reverse iterator"]),
    ("__doc__", .nothing),
    ("__hash__", .nothing)]

/-- The members of a kind of containers together with what they contain. -/
def parameterisedMembers : Roll :=
  [("__new__", .maker)] ++
  hooks ["__repr__", "__hash__", "__call__", "__getattribute__", "__lt__", "__le__", "__eq__",
    "__ne__", "__gt__", "__ge__", "__iter__", "__or__", "__ror__", "__getitem__"] ++ [
    ("__mro_entries__", .operation none []),
    ("__instancecheck__", .operation none []),
    ("__subclasscheck__", .operation none []),
    ("__reduce__", .operation none []),
    ("__dir__", .operation none [])] ++
  fields ["__origin__", "__args__", "__unpacked__"] ++
  [("__parameters__", .property ["Type variables in the GenericAlias."])] ++
  properties ["__typing_unpacked_tuple_args__"] ++ [
    ("__doc__", .constant
        ["Represent a generic type",
         "",
         "E.g. for t = list[int], t.__origin__ is list and t.__args__ is (int,)."])]

/-- The members that a kind has itself. -/
def Kind.roll : Kind → Roll
  | text => textMembers
  | anything => anythingMembers
  | kind => kindMembers
  | operation => operationMembers
  | boundHook => boundHookMembers
  | method => methodMembers
  | hook => hookMembers
  | kindMethod => kindMethodMembers
  | property => propertyMembers
  | field => fieldMembers
  | loose => looseMembers
  | nothing => nothingMembers
  | integer => integerMembers
  | truth => truthMembers
  | tuple => tupleMembers
  | members => membersMembers
  | parameterised => parameterisedMembers

/-- A member together with its name and the kind that has it. -/
structure Entry where
  owner : Kind
  name : String
  member : Member
deriving DecidableEq, Repr

namespace Entry

def signature? (e : Entry) : Option String := e.member.signature? e.name

def about (e : Entry) : List String := e.member.about e.name

/-- The name of a member behind the name of a kind. -/
def fullName (e : Entry) : String := e.owner.name ++ "." ++ e.name

end Entry

/-- The member of this name that a kind has itself. -/
def Kind.own? (k : Kind) (name : String) : Option Entry :=
  (k.roll.lookup name).map fun m => ⟨k, name, m⟩

/-- The member of this name that a kind has. -/
def Kind.member? (k : Kind) (name : String) : Option Entry :=
  k.lineage.findSome? fun j => j.own? name

end Interop.Template
