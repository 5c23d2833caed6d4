import TracedMachine.Bytes
import TracedMachine.TraceError

/-!
# Sink

Where written bytes go.  A sink holds what it has taken; it may have room for a number of bytes
only and fail from then on, and it may fail when it is flushed.
-/

namespace TracedMachine

/-- Where written bytes go. -/
structure Sink where
  /-- The bytes taken. -/
  held : Bytes := []
  /-- The number of bytes that there is still room for; nothing stands for any number. -/
  room : Option Nat := none
  /-- What happens to a byte for which there is no room. -/
  whenFull : OutputFault := .full
  /-- What happens when the sink is flushed, if it fails. -/
  flushFault : Option OutputFault := none
deriving DecidableEq, Repr

namespace Sink

/-- Writes bytes; of bytes that do not fit, those are taken for which there is room. -/
def write (s : Sink) (bytes : Bytes) : Except OutputFault Unit × Sink :=
  match s.room with
  | none => (.ok (), { s with held := s.held ++ bytes })
  | some n =>
    if bytes.length ≤ n then
      (.ok (), { s with held := s.held ++ bytes, room := some (n - bytes.length) })
    else (.error s.whenFull, { s with held := s.held ++ bytes.take n, room := some 0 })

/-- Brings what was taken to its place. -/
def flush (s : Sink) : Except OutputFault Unit :=
  match s.flushFault with
  | none => .ok ()
  | some fault => .error fault

/-- Writes bytes and brings them to their place. -/
def writeOut (s : Sink) (bytes : Bytes) : Except OutputFault Unit × Sink :=
  match s.write bytes with
  | (.ok _, s) => (s.flush, s)
  | (.error fault, s) => (.error fault, s)

end Sink

end TracedMachine
