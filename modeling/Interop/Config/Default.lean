import Interop.Value.Basic

/-!
# The default configuration

Every option that a configuration can set, with the value that it has if none does.  An empty name
falls back to the name of the input file, and an empty directory means no log files.
-/

set_option autoImplicit false

namespace Interop.Config

/-- The layer that every configuration is laid over. -/
def defaults : Value.Entries :=
  [("bindgen", .table
    [("library_name", .text ""),
     ("class_name", .text ""),
     ("namespace", .text ""),
     ("usings", .list [.text "System", .text "System.Runtime.InteropServices", .text "C2CS"]),
     ("on_error", .text "abort"),
     ("manifest", .bool false)]),
   ("mapping", .table
    [("max_workers", .int 1),
     ("validate_layout", .bool false),
     ("boolean_type_name", .text "CBool")]),
   ("logging", .table
    [("console_level", .text "INFO"),
     ("file_level", .text "DEBUG"),
     ("color", .bool true),
     ("jsonl", .bool false),
     ("dir", .text ""),
     ("filename_pattern", .text "c2cs-\x7btimestamp\x7d.log"),
     ("timestamp_format", .text "%Y%m%dT%H%M%S")])]

end Interop.Config
