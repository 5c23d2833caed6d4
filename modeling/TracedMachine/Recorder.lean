import TracedMachine.Event
import TracedMachine.Sink
import TracedMachine.Trace.File

/-!
# Recorder

Recording method events.  A session has a buffer for a number of records; events that find it
full are dropped and counted.  A slot of the buffer holds a method and what happened to it in one
word, as a trace file does.  Ending a session writes a trace file that names, besides the threads,
every method that occurs in a record and the two synthetic ones.

Only one session can be open.  A request that is refused changes nothing.
-/

namespace TracedMachine

open Trace

/-- Names for the ids that occur in a trace. -/
structure TraceKey where
  method? : MethodId → Option MethodEntry
  threads : List ThreadEntry

namespace TraceKey

/-- The entry of a synthetic method. -/
def synthetic (id : MethodId) (name : String) : MethodEntry :=
  { id, className := "Lregvm/system/VMDebug;", name, signature := "()V" }

/-- The entry of a method that nobody knows. -/
def unknown (id : MethodId) : MethodEntry :=
  { id, className := "(unknown)", name := "(unknown)", signature := "()V" }

/-- The entry of any method. -/
def entry (k : TraceKey) (id : MethodId) : MethodEntry :=
  if id = .collection then synthetic id "(gc)"
  else if id = .classPreparation then synthetic id "(class prep)"
  else (k.method? id).getD (unknown id)

end TraceKey

/-- The ids of records and the synthetic ids, in ascending order, each once. -/
def tracedIds (records : List Record) : List MethodId :=
  records.foldl (fun ids r => r.method.insert ids) [.collection, .classPreparation]

/-- A place in a session's buffer. -/
structure Slot where
  thread : ThreadId
  /-- The method and the action. -/
  word : UInt32
  elapsed : UInt32
deriving DecidableEq, Repr

/-- The record in a slot, unless its action bits stand for no action. -/
def Slot.record? (s : Slot) : Option Record :=
  (Action.ofBits? s.word).map fun action =>
    { thread := s.thread, method := .ofWord s.word, action, elapsed := s.elapsed }

/-- A trace that is being recorded. -/
structure Session where
  sink : Sink
  /-- The number of records the buffer holds. -/
  capacity : Nat
  /-- The slots that have been filled, in order. -/
  slots : Array Slot := #[]
  /-- The number of slots that have been claimed, also past the end of the buffer.  It is at most
  the number of events, as `overflow` is (`Recorder.Refines.fits`). -/
  cursor : Nat := 0
  /-- The number of events that found the buffer full. -/
  overflow : Nat := 0
  /-- The clock when the session began. -/
  startTime : UInt64
  flags : TraceFlags
deriving DecidableEq, Repr

/-- What a session has written. -/
structure TraceSummary where
  entries : UInt32
  overflow : UInt32
  capacity : Nat
  flags : TraceFlags
deriving DecidableEq, Repr

namespace Session

/-- The number of records that a buffer of so many bytes holds. -/
def capacityFor (bufferSize : Nat) : Nat := (bufferSize - headerSize) / recordSize

/-- The smallest buffer. -/
def minimumBuffer : Nat := headerSize + recordSize

/-- The microseconds from the start to `now`, or the most that a record can hold. -/
def elapsed (s : Session) (now : UInt64) : UInt32 :=
  (min (now.toNat - s.startTime.toNat) 0xffffffff).toUInt32

/-- Records an event: claims the next slot, and fills it if the buffer has it. -/
def record (s : Session) (now : UInt64) (thread : ThreadId) (method : MethodId) (action : Action) :
    Session :=
  let index := s.cursor
  let s := { s with cursor := index + 1 }
  if index < s.capacity then
    let slot : Slot := { thread, word := method.word action, elapsed := s.elapsed now }
    { s with slots := s.slots.push slot }
  else { s with overflow := s.overflow + 1 }

/-- The number of slots in use. -/
def entries (s : Session) : Nat := min s.cursor s.capacity

/-- The records in the buffer. -/
def records (s : Session) : List Record := (s.slots.toList.take s.entries).filterMap Slot.record?

/-- The number of dropped events, or the most that a header can hold. -/
def overflow32 (s : Session) : UInt32 := (min s.overflow 0xffffffff).toUInt32

/-- The file of a session. -/
def file (s : Session) (key : TraceKey) : TraceFile :=
  let records := s.records
  { overflowed := s.overflow32 ≠ 0
    threads := key.threads
    methods := (tracedIds records).map key.entry
    header :=
      { version := currentVersion
        startTime := s.startTime
        overflow := s.overflow32
        entries := records.length.toUInt32 }
    records }

/-- What a session has written. -/
def summary (s : Session) : TraceSummary :=
  { entries := s.records.length.toUInt32, overflow := s.overflow32, capacity := s.capacity
    flags := s.flags }

end Session

/-- Where a trace is to be written. -/
inductive Target where
  /-- A file, and what came of opening it. -/
  | file (path : String) (opened : Except OutputFault Unit)
  /-- A sink. -/
  | writer (sink : Sink)

/-- The target in words. -/
def Target.text : Target → String
  | file path _ => s!"File({Text.quoted path})"
  | writer _ => "Writer(..)"

/-- Recording of method events. -/
structure Recorder where
  /-- The session that is open. -/
  session : Option Session := none
  /-- The time, in microseconds. -/
  clock : UInt64 := 0
deriving DecidableEq, Repr

/-- What comes of a stop: its result, and the sink of the session that has ended. -/
structure Finished where
  result : Except TraceError TraceSummary
  sink : Option Sink

namespace Recorder

/-- A session is open. -/
def enabled (r : Recorder) : Bool := r.session.isSome

/-- The recorder in words. -/
def text (r : Recorder) : String :=
  s!"MethodTraceState \x7b enabled: {r.enabled}, in_flight: 0, .. \x7d"

/-- Why a session with such a buffer cannot begin, before its target is opened. -/
def refusal? (r : Recorder) (bufferSize : Nat) : Option TraceError :=
  if r.enabled then some .alreadyTracing
  else if Session.capacityFor bufferSize = 0 then
    some (.bufferTooSmall bufferSize Session.minimumBuffer)
  else none

/-- Begins a session with a sink. -/
def begin (r : Recorder) (sink : Sink) (bufferSize : Nat) (flags : TraceFlags) : Recorder :=
  let capacity := Session.capacityFor bufferSize
  { r with session := some { sink, capacity, startTime := r.clock, flags } }

/-- Begins a session. -/
def start (r : Recorder) (target : Target) (bufferSize : Nat) (flags : TraceFlags) :
    Outcome Recorder Notice (Except TraceError Unit) :=
  let started := Notice.traceStarted (Session.capacityFor bufferSize) bufferSize flags
  match r.refusal? bufferSize with
  | some e =>
    { value := .error e, state := r
      events := if e = .alreadyTracing then [.alreadyTracing] else [] }
  | none =>
    match target with
    | .file _ (.error fault) => { value := .error (.output fault), state := r, events := [] }
    | .file path (.ok _) =>
      { value := .ok (), state := r.begin {} bufferSize flags
        events := [.tracingTo path, started] }
    | .writer sink =>
      { value := .ok (), state := r.begin sink bufferSize flags, events := [started] }

/-- Records an event, if a session is open. -/
def add (r : Recorder) (thread : ThreadId) (method : MethodId) (action : Action) : Recorder :=
  match r with
  | { session := some s, clock } => { session := some (s.record clock thread method action), clock }
  | r => r

/-- Records an event of a thread: calls, and the passes that are shown as calls. -/
def observe (r : Recorder) (thread : ThreadId) : Event → Recorder
  | .method id action => r.add thread id action
  | .passBegan pass => r.add thread pass.method .enter
  | .passEnded pass => r.add thread pass.method .exit
  | .instruction _ | .alloc _ | .notice _ => r

/-- Ends the session and writes its file. -/
def stop (r : Recorder) (key : TraceKey) : Outcome Recorder Notice Finished :=
  match r.session with
  | none =>
    { value := { result := .error .notTracing, sink := none }, state := r
      events := [.notTracing] }
  | some s =>
    let idle := { r with session := none }
    match s.sink.writeOut (s.file key).encode with
    | (.error fault, sink) =>
      { value := { result := .error (.output fault), sink := some sink }, state := idle
        events := [] }
    | (.ok _, sink) =>
      let overflowed :=
        if s.overflow32 = 0 then [] else [Notice.traceOverflowed s.overflow32.toNat]
      { value := { result := .ok s.summary, sink := some sink }, state := idle
        events := overflowed ++ [.traceStopped s.summary.entries.toNat] }

end Recorder

end TracedMachine
