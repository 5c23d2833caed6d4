import TracedMachine.Bytes
import TracedMachine.MethodId
import TracedMachine.ThreadId

/-!
# Trace — Entry

The pieces of a trace file: threads and methods, which its key names, and records, which its
data holds.  A record takes nine bytes: the thread, the word of method and action, and the
microseconds since the trace began, each with its low byte first.
-/

namespace TracedMachine

namespace Trace

/-- A thread and its name. -/
structure ThreadEntry where
  id : ThreadId
  name : String
deriving DecidableEq, Repr

/-- A method and its names. -/
structure MethodEntry where
  id : MethodId
  className : String
  name : String
  signature : String
deriving DecidableEq, Repr

/-- What one thread did with one method, and when. -/
structure Record where
  thread : ThreadId
  method : MethodId
  action : Action
  /-- Microseconds since the trace began. -/
  elapsed : UInt32
deriving DecidableEq, Repr

/-- The bytes a record takes. -/
def recordSize : Nat := 9

/-- The bytes of a record. -/
def Record.encode (r : Record) : Bytes :=
  r.thread.raw :: littleEndian 4 (r.method.word r.action).toNat ++ littleEndian 4 r.elapsed.toNat

/-- The record in nine bytes, unless its action bits stand for no action. -/
def Record.decode? (bytes : Bytes) : Option Record :=
  let word := (wordAt bytes 1 4).toUInt32
  (Action.ofBits? word).map fun action =>
    { thread := ⟨(wordAt bytes 0 1).toUInt8⟩
      method := .ofWord word
      action
      elapsed := (wordAt bytes 5 4).toUInt32 }

end Trace

end TracedMachine
