import TracedMachine.Bytes
import TracedMachine.Trace.FormatError

/-!
# Trace — Header

The head of the binary part of a trace file: a magic number, a version, the head's own length,
the time the trace began, how many events were dropped and how many records follow.  A written
head has 32 bytes; a read one says how long it is, and only its first 24 bytes mean something.
-/

namespace TracedMachine.Trace

/-- The head of a trace's data. -/
structure Header where
  version : UInt16
  /-- Microseconds since the epoch. -/
  startTime : UInt64
  /-- The number of events dropped. -/
  overflow : UInt32
  /-- The number of records that follow. -/
  entries : UInt32
deriving DecidableEq, Repr

/-- The first four bytes of trace data, `SLOW`. -/
def magic : UInt32 := 0x574f4c53

/-- The only version there is. -/
def currentVersion : UInt16 := 1

/-- The length of a written head. -/
def headerSize : Nat := 32

/-- The bytes of a head that mean something. -/
def headerUsed : Nat := 24

namespace Header

/-- The bytes of a head. -/
def encode (h : Header) : Bytes :=
  littleEndian 4 magic.toNat ++ littleEndian 2 h.version.toNat ++ littleEndian 2 headerSize ++
    littleEndian 8 h.startTime.toNat ++ littleEndian 4 h.overflow.toNat ++
    littleEndian 4 h.entries.toNat ++ List.replicate (headerSize - headerUsed) 0

/-- The head at the front of trace data, and its length. -/
def parse (bytes : Bytes) : Except FormatError (Header × Nat) :=
  let available := bytes.length
  let found := (wordAt bytes 0 4).toUInt32
  let version := (wordAt bytes 4 2).toUInt16
  let length := wordAt bytes 6 2
  if available < 8 then .error (.truncated headerSize available)
  else if found ≠ magic then .error (.badMagic found)
  else if version ≠ currentVersion then .error (.unsupportedVersion version)
  else if length < headerUsed ∨ available < length then
    .error (.truncated (max length headerUsed) available)
  else
    .ok ({ version
           startTime := (wordAt bytes 8 8).toUInt64
           overflow := (wordAt bytes 16 4).toUInt32
           entries := (wordAt bytes 20 4).toUInt32 }, length)

end Header

end TracedMachine.Trace
