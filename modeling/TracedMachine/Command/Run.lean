import TracedMachine.Command.Report
import TracedMachine.Demo
import TracedMachine.Vm

/-!
# Command — Run

Running the workload on a number of threads, one after the other, under whatever is to observe it.
The job ends early if the trace cannot be begun or ended; it goes on when a worker fails, and the
command then fails with the last of their throwables.

What tells the time at the end of the trace is a parameter.  With it the job says how long the trace
was open (`RunOptions.runTimed`); without it, the clock stands still and it does not
(`RunOptions.run`).
-/

namespace TracedMachine

/-- How the workload is run. -/
structure RunOptions where
  threads : Nat := 4
  iterations : UInt32 := 1000
  heapSize : Nat := 67108864
  /-- The file for a method trace. -/
  trace : Option String := none
  /-- The bytes of the trace buffer. -/
  bufferSize : Option Nat := none
  allocCounts : Bool := false
  countInstructions : Bool := false
deriving DecidableEq, Repr

/-- A job under way: its machine, and what it has printed and written. -/
structure Progress where
  vm : Vm
  output : Array String := #[]
  written : Option Bytes := none

/-- Work on a job, which the profiler may refuse to go on with. -/
abbrev Job (m : Type → Type) := ExceptT TraceError (StateT Progress m)

namespace Job

variable {m : Type → Type} [Monad m]

/-- Prints a line. -/
def print (line : String) : Job m Unit :=
  modify fun p => { p with output := p.output.push line }

/-- Works on the machine. -/
def onVm {α : Type} (work : Vm → α × Vm) : Job m α :=
  modifyGet fun ⟨vm, output, written⟩ =>
    let (a, vm) := work vm
    (a, ⟨vm, output, written⟩)

/-- Works on the profiler. -/
def onProfiler {α : Type} (work : Profiler → Outcome Profiler Notice α) : Job m α :=
  onVm fun vm => vm.profile (work vm.profiler)

/-- Changes the profiler. -/
def changeProfiler (change : Profiler → Profiler) : Job m Unit :=
  onProfiler fun p => { value := (), state := change p, events := [] }

end Job

/-- Allocation counts in words. -/
def AllocStats.line (label : String) (s : AllocStats) : String :=
  s!"{label}: {s.heap.allocCount} allocs ({s.heap.allocSize} bytes), " ++
    s!"{s.heap.failedCount} failed ({s.heap.failedSize} bytes), " ++
    s!"{s.heap.freeCount} frees, {s.collections} gcs"

/-- What came of a worker. -/
structure WorkerResult where
  name : String
  place : Nat
  value : Except Throwable Word
  stats : AllocStats

namespace WorkerResult

/-- The worker in words. -/
def lines (w : WorkerResult) : List String :=
  let result :=
    match w.value with
    | .ok value => s!"{w.name}: result {value}"
    | .error t => s!"{w.name}: {t.text}"
  [result, w.stats.line w.name]

/-- What the worker failed with. -/
def failure? (w : WorkerResult) : Option Throwable :=
  match w.value with
  | .ok _ => none
  | .error t => some t

end WorkerResult

/-- Attaches a thread, has it run the workload with its own allocation counters on, and gives what
came of it. -/
def Vm.employ (vm : Vm) (demo : Module) (iterations : UInt32) (number : Nat) :
    Option WorkerResult × Vm :=
  let name := s!"worker-{number}"
  let (place, vm) := vm.attach name Stack.usualLimit
  let vm := vm.changeAlloc place (·.start)
  match vm.invoke Vm.patience place demo 0 [iterations.toUInt64] with
  | some (some value, vm) =>
    let result := (vm.threads.get? place).map fun t =>
      { name, place, value, stats := t.alloc.stats : WorkerResult }
    (result, vm.changeAlloc place (·.stop))
  | some (none, vm) => (none, vm)
  | none => (none, vm)

namespace RunOptions

/-- A machine for the workload. -/
def createVm (o : RunOptions) : Vm :=
  let settings : ProfilerSettings := {}
  .create { limit := o.heapSize }
    { settings with bufferSize := o.bufferSize.getD settings.bufferSize } Report.newLog

/-- The file to be opened for the trace; there is none if the trace will be refused. -/
def traceFile? (o : RunOptions) : Option String :=
  let p := o.createVm.profiler
  o.trace.filter fun _ => (p.recorder.refusal? p.settings.bufferSize).isNone

variable {m : Type → Type} [Monad m]

/-- Turns on what is to observe the workload, where `opened` came of opening the trace file. -/
def observeAll (o : RunOptions) (opened : Except OutputFault Unit) : Job m Unit := do
  match o.trace with
  | some path =>
    let flags := if o.allocCounts then TraceFlags.allocCounts else .none
    let started ← Job.onProfiler fun p =>
      p.startTracing (.file path opened) p.settings.bufferSize flags
    MonadExcept.ofExcept started
  | none =>
    if o.allocCounts then Job.changeProfiler (·.startAlloc)
  if o.countInstructions then Job.changeProfiler (·.startInstructions)

/-- How long the trace has been open by a clock. -/
def traceTime (vm : Vm) (now : UInt64) : String :=
  let began := vm.profiler.recorder.session.elim now (·.startTime)
  Text.duration (now.toNat - began.toNat)

/-- Ends the trace and says how many events it has, how many it has not, and how long it was open,
if `now` tells the time. -/
def endTrace (now : m (Option UInt64)) : Job m Unit := do
  let clock ← (now : StateT Progress m (Option UInt64))
  let elapsed := clock.map (traceTime (← get).vm)
  let finished ← Job.onVm fun vm => vm.profile (vm.profiler.stopTracing vm.key)
  modify fun p => { p with written := finished.sink.map (·.held) }
  let summary ← MonadExcept.ofExcept finished.result
  let parts := [s!"{summary.entries} entries", s!"{summary.overflow} dropped"] ++ elapsed.toList
  Job.print ("trace: " ++ ", ".intercalate parts)

/-- Ends the counting of allocations and prints the counts. -/
def endAllocCounts : Job m Unit := do
  let stats ← Job.onProfiler fun p => { value := p.alloc.stats, state := p.stopAlloc, events := [] }
  Job.print (stats.line "total")

/-- Ends the counting of operations and prints the counts that are not zero. -/
def endInstructionCounts : Job m Unit := do
  let stopped ← Job.onProfiler fun p =>
    match p.stopInstructions with
    | .ok p => { value := .ok p.instructions, state := p, events := [] }
    | .error e => { value := .error e, state := p, events := [] }
  let counts ← MonadExcept.ofExcept stopped
  for op in Opcode.all do
    let count := counts.get op
    if count ≠ 0 then Job.print s!"{Text.padLeft 20 op.name} {count}"

/-- The job from a machine that is ready; its results are those of the workers. -/
def work (o : RunOptions) (opened : Except OutputFault Unit) (now : m (Option UInt64)) :
    Job m (List WorkerResult) := do
  o.observeAll opened
  let demo ← Job.onVm fun vm => vm.load Demo.workload
  let results ← (List.range o.threads).filterMapM fun number =>
    Job.onVm fun vm => vm.employ demo o.iterations number
  for line in results.flatMap (·.lines) do Job.print line
  if o.trace.isSome then endTrace now
  if o.allocCounts then endAllocCounts
  if o.countInstructions then endInstructionCounts
  for w in results do Job.onVm fun vm => ((), vm.detach w.place)
  return results

/-- What the job leaves. -/
def report : Except TraceError (List WorkerResult) × Progress → Report
  | (.error e, p) =>
    { output := p.output.toList, log := p.vm.log, written := p.written : Report }.fail e.message
  | (.ok results, p) =>
    let report : Report :=
      { output := p.output.toList, log := p.vm.shutdown.2.log, written := p.written }
    match (results.filterMap (·.failure?)).getLast? with
    | none => report
    | some t => report.fail s!"uncaught {t.text}"

/-- Runs the workload, where `opened` came of opening the trace file, `clock` is the time at the
start, and `now` tells the time at the end of the trace. -/
def runTimed (o : RunOptions) (opened : Except OutputFault Unit) (clock : UInt64)
    (now : m (Option UInt64)) : m Report :=
  report <$> ((o.work opened now).run).run { vm := o.createVm.setClock clock }

/-- Runs the workload while the clock stands still. -/
def run (o : RunOptions) (opened : Except OutputFault Unit) (clock : UInt64) : Report :=
  Id.run (o.runTimed opened clock (pure none))

end RunOptions

end TracedMachine
