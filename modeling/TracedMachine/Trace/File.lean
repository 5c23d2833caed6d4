import TracedMachine.Trace.Header
import TracedMachine.Trace.Key

/-!
# Trace — File

Whole trace files: a key, a head, and as many records as the head says.  `TraceFile.encode` writes
one and `TraceFile.parse` reads one; what follows the last record is not read.
-/

namespace TracedMachine

open Trace

/-- A trace file. -/
structure TraceFile where
  /-- The key says that events were dropped. -/
  overflowed : Bool
  threads : List ThreadEntry
  methods : List MethodEntry
  header : Header
  records : List Record
deriving DecidableEq, Repr

namespace TraceFile

/-- The bytes of a trace file. -/
def encode (f : TraceFile) : Bytes :=
  Text.encode (keyText f.header.overflow f.threads f.methods) ++ f.header.encode ++
    f.records.flatMap Record.encode

/-- `count` records at the front of the bytes, the first of which has number `index`. -/
def decodeRecords : Nat → Nat → Bytes → Except FormatError (List Record)
  | _, 0, _ => .ok []
  | index, count + 1, bytes =>
    match Record.decode? (bytes.take recordSize) with
    | none => .error (.reservedAction index)
    | some r => (decodeRecords (index + 1) count (bytes.drop recordSize)).map (r :: ·)

/-- Reads a trace file. -/
def parse (bytes : Bytes) : Except FormatError TraceFile := do
  let (key, data) ← KeyReader.run {} [] bytes
  let (header, length) ← Header.parse data
  let needed := length + header.entries.toNat * recordSize
  if data.length < needed then throw (.truncated needed data.length)
  let records ← decodeRecords 0 header.entries.toNat (data.drop length)
  return { overflowed := key.overflowed
           threads := key.threads.toList
           methods := key.methods.toList
           header
           records }

/-- The first method of the key with this id. -/
def method? (f : TraceFile) (id : MethodId) : Option MethodEntry :=
  f.methods.find? fun m => m.id = id

end TraceFile

end TracedMachine
