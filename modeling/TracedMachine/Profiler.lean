import TracedMachine.AllocCounters
import TracedMachine.EventStream
import TracedMachine.OpcodeCounts
import TracedMachine.Recorder

/-!
# Profiler

All that can observe a machine: the recorder of method events, the stream to an emulator, the
counts of operations, and the allocation counters of the process.

`active` counts the consumers of method and instruction events, so that those events can be passed
over while there are none.  A trace session may ask for allocation counts as long as it lasts.
-/

namespace TracedMachine

/-- All that can observe a machine. -/
structure Profiler where
  settings : ProfilerSettings
  /-- The number of consumers of method and instruction events. -/
  active : Nat := 0
  recorder : Recorder := {}
  emulator : EventStream := {}
  instructions : OpcodeCounts := {}
  alloc : AllocCounters
  /-- The open session has turned allocation counts on. -/
  traceCountsAllocs : Bool := false
deriving DecidableEq, Repr

namespace Profiler

/-- A profiler with nothing turned on. -/
def new (settings : ProfilerSettings) : Profiler :=
  { settings, alloc := .new settings.trackExternal }

/-- Sets the clock by which method events are recorded. -/
def setClock (p : Profiler) (clock : UInt64) : Profiler :=
  { p with recorder := { p.recorder with clock } }

/-- There are consumers of method and instruction events. -/
def isActive (p : Profiler) : Bool := p.active ≠ 0

/-- One consumer more. -/
def gateUp (p : Profiler) : Profiler := { p with active := p.active + 1 }

/-- One consumer less. -/
def gateDown (p : Profiler) : Profiler := { p with active := p.active - 1 }

/-- Begins a trace session. -/
def startTracing (p : Profiler) (target : Target) (bufferSize : Nat) (flags : TraceFlags) :
    Outcome Profiler Notice (Except TraceError Unit) :=
  let started := p.recorder.start target bufferSize flags
  match started.value with
  | .error e => { value := .error e, state := p, events := started.events }
  | .ok _ =>
    let p := { p with recorder := started.state }
    let p :=
      if flags.countsAllocs then { p with alloc := p.alloc.start, traceCountsAllocs := true } else p
    { value := .ok (), state := p.gateUp, events := started.events }

/-- Ends the trace session, also if its file cannot be written. -/
def stopTracing (p : Profiler) (key : TraceKey) : Outcome Profiler Notice Finished :=
  let stopped := p.recorder.stop key
  if p.recorder.enabled then
    let p := { p with recorder := stopped.state }
    let p :=
      if p.traceCountsAllocs then { p with alloc := p.alloc.stop, traceCountsAllocs := false }
      else p
    { value := stopped.value, state := p.gateDown, events := stopped.events }
  else { value := stopped.value, state := p, events := stopped.events }

/-- Starts the stream to an emulator, once more. -/
def startEmulator (p : Profiler) : Outcome Profiler Notice Unit :=
  let started := p.emulator.start
  { value := (), state := { p with emulator := started.state }.gateUp, events := started.events }

/-- Takes one start of the stream back. -/
def stopEmulator (p : Profiler) : Outcome Profiler Notice (Except TraceError Unit) :=
  let stopped := p.emulator.stop
  match stopped.value with
  | .error e => { value := .error e, state := p, events := stopped.events }
  | .ok _ =>
    { value := .ok (), state := { p with emulator := stopped.state }.gateDown
      events := stopped.events }

/-- Starts counting operations, once more. -/
def startInstructions (p : Profiler) : Profiler :=
  { p with instructions := p.instructions.start }.gateUp

/-- Takes one start of counting operations back. -/
def stopInstructions (p : Profiler) : Except TraceError Profiler :=
  p.instructions.stop.map fun instructions => { p with instructions }.gateDown

/-- Counts allocations of the process, from zero. -/
def startAlloc (p : Profiler) : Profiler := { p with alloc := p.alloc.start }

/-- Counts allocations of the process no more. -/
def stopAlloc (p : Profiler) : Profiler := { p with alloc := p.alloc.stop }

/-- Ends everything that is running, and gives the sink of the session that was open. -/
def shutdown (p : Profiler) (key : TraceKey) : Outcome Profiler Notice (Option Sink) :=
  let stopped := p.stopTracing key
  let (p, sink, traced) :=
    if p.recorder.enabled then
      let last :=
        match stopped.value.result with
        | .ok summary => Notice.shutdownWroteTrace summary.entries.toNat
        | .error e => .shutdownLostTrace e.message
      (stopped.state, stopped.value.sink, stopped.events ++ [last])
    else (p, none, [])
  let (emulator, streamed) :=
    if p.emulator.enabled then (p.emulator.disable.disconnect, [Notice.shutdownEmulator])
    else (p.emulator, [])
  let counted := if p.instructions.enabled then [Notice.shutdownInstructions] else []
  let allocated := if p.alloc.enabled then [Notice.shutdownAllocations] else []
  { value := sink
    state := { p with
      emulator
      instructions := p.instructions.disable
      alloc := p.alloc.stop
      active := 0 }
    events := traced ++ streamed ++ counted ++ allocated }

/-- The event only matters to consumers that `active` counts. -/
def isGated : Event → Bool
  | .method .. | .instruction _ | .passBegan _ | .passEnded _ => true
  | .alloc _ | .notice _ => false

/-- What an event of a thread does to whoever listens. -/
def hear (p : Profiler) (thread : ThreadId) (e : Event) : Profiler :=
  match e with
  | .method id action =>
    { p with
      recorder := p.recorder.observe thread e
      emulator := p.emulator.emit ⟨id, action⟩ }
  | .passBegan _ | .passEnded _ => { p with recorder := p.recorder.observe thread e }
  | .instruction op => { p with instructions := p.instructions.count op }
  | .alloc a => { p with alloc := p.alloc.record a }
  | .notice _ => p

/-- Observes an event of a thread; method and instruction events are passed over while nobody
consumes them. -/
def observe (p : Profiler) (thread : ThreadId) (e : Event) : Profiler :=
  if isGated e && !p.isActive then p else p.hear thread e

end Profiler

end TracedMachine
