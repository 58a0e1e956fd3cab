import Interop.Log.Message
import Interop.Log.Record

/-!
# Remarks

A remark is what a part of the program has to say: a message with slots and the values for them.
It becomes a record once its slots are filled; one whose slots cannot be filled, be it for want of
room, says nothing.
-/

set_option autoImplicit false

namespace Interop.Log

structure Remark where
  level : Int
  logger : String
  message : String
  values : List Value
deriving Repr

def Remark.record? (r : Remark) (room : Nat) : Option Record :=
  (message? room r.message.toList r.values).map fun t =>
    ⟨r.level, loggerName r.logger.toList, t, none⟩

end Interop.Log
