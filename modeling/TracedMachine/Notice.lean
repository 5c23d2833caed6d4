import TracedMachine.Text.Quoted
import TracedMachine.ThreadId
import TracedMachine.Throwable

/-!
# Notice

What the parts of the machine tell a log, and the log.  Each notice has a level and a text; a log
keeps the lines at or above its threshold.
-/

namespace TracedMachine

/-- How urgent a notice is. -/
inductive Level where
  | error
  | warn
  | info
  | debug
  | trace
deriving DecidableEq, Repr

namespace Level

/-- Zero for the most urgent level. -/
def rank : Level → Nat
  | error => 0
  | warn => 1
  | info => 2
  | debug => 3
  | trace => 4

/-- The level in a log line. -/
def text : Level → String
  | error => "ERROR"
  | warn => "WARN"
  | info => "INFO"
  | debug => "DEBUG"
  | trace => "TRACE"

end Level

/-- What a trace session does besides tracing, one bit each. -/
structure TraceFlags where
  bits : UInt32
deriving DecidableEq, Repr

namespace TraceFlags

/-- No flag. -/
def none : TraceFlags := ⟨0⟩

/-- The session counts allocations. -/
def allocCounts : TraceFlags := ⟨1⟩

/-- The flags ask for allocation counts. -/
def countsAllocs (f : TraceFlags) : Bool := f.bits % 2 = 1

/-- The flags in words; bits without a name are written as a number. -/
def text (f : TraceFlags) : String :=
  let rest := f.bits - f.bits % 2
  let names := if f.countsAllocs then ["ALLOC_COUNTS"] else []
  let numbers := if rest ≠ 0 ∨ f.bits = 0 then [Text.shortHex rest.toNat] else []
  let all := " | ".intercalate (names ++ numbers)
  s!"TraceFlags({all})"

end TraceFlags

/-- What a profiler is set up with. -/
structure ProfilerSettings where
  /-- The bytes of a trace buffer, unless a session asks for another size. -/
  bufferSize : Nat := 8388608
  /-- Allocations outside the heap are counted too. -/
  trackExternal : Bool := true
  /-- The events an emulator's queue holds. -/
  emulatorQueue : Nat := 1024
deriving DecidableEq, Repr

/-- What the parts of the machine tell a log. -/
inductive Notice where
  /-- An instruction is about to run. -/
  | executing (method : String) (pc : Nat) (instruction : Instruction)
  /-- An array is asked for. -/
  | newArray (dst : UInt8) (length : Int32) (classIndex : UInt16)
  /-- A handler takes a throwable. -/
  | caught (throwable : Throwable) (method : String) (pc : Nat)
  /-- A class is made. -/
  | preparing (descriptor : String)
  /-- A collection has ended. -/
  | reclaimed (objects bytes : Nat)
  /-- An allocation failed. -/
  | outOfMemory (bytes : Nat) (descriptor : String)
  /-- A thread was attached. -/
  | attached (id : ThreadId) (name : String)
  /-- A module was loaded. -/
  | moduleLoaded (methods classRefs : Nat)
  /-- A profiler was set up. -/
  | profilerStarted (settings : ProfilerSettings)
  /-- A machine was set up. -/
  | vmCreated (heapLimit : Nat)
  /-- A machine was shut down. -/
  | vmShutDown
  /-- A trace was asked for while one was running. -/
  | alreadyTracing
  /-- A trace was stopped while none was running. -/
  | notTracing
  /-- A trace file was opened. -/
  | tracingTo (path : String)
  /-- A trace session began. -/
  | traceStarted (capacity bufferSize : Nat) (flags : TraceFlags)
  /-- A trace session dropped events. -/
  | traceOverflowed (events : Nat)
  /-- A trace session was written out. -/
  | traceStopped (entries : Nat)
  /-- A consumer of method events was attached. -/
  | consumerAttached (queue : Nat)
  /-- Events for the emulator were enabled, so many times by now. -/
  | emulatorEnabled (count : Nat)
  /-- Events for the emulator were disabled, so many times enabled still. -/
  | emulatorDisabled (count : Nat)
  /-- A shutdown wrote out the trace that was running. -/
  | shutdownWroteTrace (entries : Nat)
  /-- A shutdown could not write out the trace that was running. -/
  | shutdownLostTrace (reason : String)
  /-- A shutdown disabled events for the emulator. -/
  | shutdownEmulator
  /-- A shutdown disabled instruction counts. -/
  | shutdownInstructions
  /-- A shutdown disabled allocation counts. -/
  | shutdownAllocations
  /-- A trace file lacks events. -/
  | eventsDropped (events : Nat)
  /-- A command failed. -/
  | failure (message : String)
deriving DecidableEq, Repr

namespace Notice

/-- How urgent the notice is. -/
def level : Notice → Level
  | executing .. | newArray .. => .trace
  | caught .. | preparing _ | reclaimed .. | attached .. | moduleLoaded .. | profilerStarted _
  | consumerAttached _ | emulatorEnabled _ | emulatorDisabled _ => .debug
  | vmCreated _ | vmShutDown | tracingTo _ | traceStarted .. | traceStopped _
  | shutdownWroteTrace _ | shutdownEmulator | shutdownInstructions | shutdownAllocations => .info
  | outOfMemory .. | alreadyTracing | notTracing | traceOverflowed _ | shutdownLostTrace _
  | eventsDropped _ => .warn
  | failure _ => .error

/-- The notice in words. -/
def text : Notice → String
  | executing method pc i => s!"{method}@{Text.padLeft 4 (toString pc)}: {i.text}"
  | newArray dst length classIndex =>
    s!"new-array v{dst}: {length} of class@{Text.hex 4 classIndex.toNat}"
  | caught t method pc => s!"{t.text} caught in {method} at {pc}"
  | preparing descriptor => s!"preparing class {descriptor}"
  | reclaimed objects bytes => s!"gc: reclaimed {objects} objects, {bytes} bytes"
  | outOfMemory bytes descriptor => s!"out of memory allocating {bytes} bytes for {descriptor}"
  | attached id name => s!"attached thread {id.raw} as {Text.quoted name}"
  | moduleLoaded methods classRefs => s!"loaded module: {methods} methods, {classRefs} class refs"
  | profilerStarted s =>
    s!"profiler started: ProfilerSettings \x7b buffer_size: {s.bufferSize}, " ++
      s!"track_external_allocations: {s.trackExternal}, emulator_queue: {s.emulatorQueue} \x7d"
  | vmCreated heapLimit => s!"vm created: heap limit {heapLimit} bytes"
  | vmShutDown => "vm shut down"
  | alreadyTracing => "method trace start requested while already tracing"
  | notTracing => "method trace stop requested while not tracing"
  | tracingTo path => s!"method trace writing to {path}"
  | traceStarted capacity bufferSize flags =>
    s!"method trace started: {capacity} slots ({bufferSize} bytes), flags {flags.text}"
  | traceOverflowed events => s!"method trace buffer overflowed: {events} events dropped"
  | traceStopped entries => s!"method trace stopped: {entries} entries"
  | consumerAttached queue => s!"emulator consumer attached (queue {queue})"
  | emulatorEnabled count => s!"emulator tracing enabled ({count})"
  | emulatorDisabled count => s!"emulator tracing disabled ({count})"
  | shutdownWroteTrace entries => s!"shutdown: wrote pending method trace ({entries} entries)"
  | shutdownLostTrace reason => s!"shutdown: method trace lost: {reason}"
  | shutdownEmulator => "shutdown: emulator tracing disabled"
  | shutdownInstructions => "shutdown: instruction counting disabled"
  | shutdownAllocations => "shutdown: allocation counting disabled"
  | eventsDropped events => s!"{events} events were dropped"
  | failure message => message

/-- The notice as a line of a log. -/
def line (n : Notice) : String := s!"{n.level.text} {n.text}"

end Notice

/-- The lines a log has kept. -/
structure Log where
  /-- The least urgent level that is kept; nothing keeps no line. -/
  threshold : Option Level := none
  lines : Array String := #[]
deriving DecidableEq, Repr

namespace Log

/-- The log keeps notices of this level. -/
def keeps (log : Log) (level : Level) : Bool :=
  log.threshold.any fun threshold => level.rank ≤ threshold.rank

/-- Tells the log one thing. -/
def add (log : Log) (n : Notice) : Log :=
  if log.keeps n.level then { log with lines := log.lines.push n.line } else log

/-- Tells the log several things. -/
def addAll (log : Log) (ns : List Notice) : Log := ns.foldl add log

end Log

end TracedMachine
