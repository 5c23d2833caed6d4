import TracedMachine.Machine
import TracedMachine.Profiler
import TracedMachine.ThreadList

/-!
# Vm

A virtual machine for several threads: a store, the loaded methods, the threads with a stack
each, and those who observe, which are a profiler, the threads' own allocation counters and a log.

Work is done on behalf of a thread, named by its place in the order of attachment.  `Vm.perform`
does it on the store and `Vm.invoke` on the thread's stack; both show each event to the observers.
An answer of `none` means that there is no such thread.
-/

namespace TracedMachine

/-- Who observes the work of a thread. -/
structure Observers where
  thread : ThreadId
  profiler : Profiler
  /-- The thread's own counters. -/
  own : AllocCounters
  log : Log
deriving DecidableEq

namespace Observers

/-- Shows an event to everyone.  What happens to memory is counted twice, for the process and then
for the thread.  `Work.countForProcess` and `Work.countForThread` are the two reports by
themselves, and each of the eight places that make the one make the other. -/
def observe (o : Observers) (e : Event) : Observers :=
  let ⟨thread, profiler, own, log⟩ := o
  { thread
    profiler := profiler.observe thread e
    own := own.observe e
    log := match e with
      | .notice n => log.add n
      | _ => log }

end Observers

/-- A virtual machine for several threads. -/
structure Vm where
  store : Store
  methods : MethodTable := {}
  threads : ThreadList := {}
  /-- The stack of each thread. -/
  callStacks : Array Stack := #[]
  profiler : Profiler
  log : Log := {}
deriving DecidableEq

namespace Vm

/-- A machine without threads and methods. -/
def create (heap : HeapSettings) (settings : ProfilerSettings) (log : Log) : Vm :=
  { store := { heap := .empty heap }
    profiler := .new settings
    log := log.addAll [.profilerStarted settings, .vmCreated heap.limit] }

/-- Tells the log. -/
def note (vm : Vm) (ns : List Notice) : Vm := { vm with log := vm.log.addAll ns }

/-- Names for the ids in a trace: the loaded methods and the attached threads. -/
def key (vm : Vm) : TraceKey :=
  { method? := fun id => (vm.methods.get? id).map (·.entry), threads := vm.threads.entries }

/-- Attaches a thread, and gives its place. -/
def attach (vm : Vm) (name : String) (frameLimit : Nat) : Nat × Vm :=
  let attached := vm.threads.attach name vm.profiler.settings.trackExternal
  let threads := attached.state.setState attached.value .running
  let callStacks := vm.callStacks.push (.empty frameLimit)
  (attached.value, { vm with threads, callStacks }.note attached.events)

/-- Changes a thread's own allocation counters. -/
def changeAlloc (vm : Vm) (place : Nat) (change : AllocCounters → AllocCounters) : Vm :=
  { vm with threads := vm.threads.modify place fun t => { t with alloc := change t.alloc } }

/-- Sets the clock by which method events are recorded. -/
def setClock (vm : Vm) (clock : UInt64) : Vm :=
  { vm with profiler := vm.profiler.setClock clock }

/-- Detaches a thread. -/
def detach (vm : Vm) (place : Nat) : Vm := { vm with threads := vm.threads.detach place }

/-- Loads a module. -/
def load (vm : Vm) (m : ModuleDef) : Module × Vm :=
  let (methods, table) := vm.methods.registerAll m.methods
  let loaded : Module :=
    { cache := vm.store.caches.size, classRefs := m.classRefs.toArray, methods := methods.toArray }
  let caches := vm.store.caches.push (.empty m.classRefs.length)
  (loaded, { vm with methods := table, store := { vm.store with caches } }.note
    [.moduleLoaded methods.length m.classRefs.length])

/-- Gives a machine's parts to a thread's work and takes them back; the work answers the parts
that it leaves. -/
def withThread {α : Type} (vm : Vm) (place : Nat)
    (work : Machine → Observers → α × Machine × Observers) : Option (α × Vm) :=
  match vm.threads.get? place, vm.callStacks[place]? with
  | some thread, some stack =>
    let ⟨store, methods, threads, callStacks, profiler, log⟩ := vm
    let (a, m, o) := work ⟨stack, store⟩ ⟨thread.id, profiler, thread.alloc, log⟩
    some (a,
      { store := m.store
        methods
        threads := threads.modify place fun t => { t with alloc := o.own }
        callStacks := callStacks.setIfInBounds place m.stack
        profiler := o.profiler
        log := o.log })
  | _, _ => none

/-- Works on the store on behalf of a thread. -/
def perform {α : Type} (vm : Vm) (place : Nat) (work : Store → Outcome Store Event α) :
    Option (α × Vm) :=
  vm.withThread place fun ⟨stack, store⟩ observers =>
    let done := work store
    (done.value, ⟨stack, done.state⟩, done.events.foldl Observers.observe observers)

/-- Works on the heap on behalf of a thread. -/
def performOnHeap {α : Type} (vm : Vm) (place : Nat) (work : Heap → Outcome Heap Event α) :
    Option (α × Vm) :=
  vm.perform place fun ⟨heap, classes, caches⟩ =>
    let done := work heap
    { value := done.value, state := ⟨done.state, classes, caches⟩, events := done.events }

/-- Works on the classes on behalf of a thread. -/
def performOnClasses {α : Type} (vm : Vm) (place : Nat)
    (work : ClassTable → Outcome ClassTable Event α) : Option (α × Vm) :=
  vm.perform place fun store =>
    let done := work store.classes
    { value := done.value, state := { store with classes := done.state }, events := done.events }

/-- Calls a method on a thread, for up to `turns` turns of the machine's loop.  There is no value
if the call has not ended by then. -/
def invoke (vm : Vm) (turns place : Nat) (home : Module) (index : Nat) (args : List Word) :
    Option (Option (Except Throwable Word) × Vm) :=
  vm.withThread place fun machine observers =>
    match machine.invokeFor Observers.observe turns home index args observers with
    | .ended value m o => (some value, m, o)
    | .running m o => (none, m, o)

/-- Turns enough for any call that is waited for. -/
def patience : Nat := 0x4000000000000000

/-- Replaces the profiler and tells the log. -/
def profile {α : Type} (vm : Vm) (done : Outcome Profiler Notice α) : α × Vm :=
  (done.value, { vm with profiler := done.state }.note done.events)

/-- Ends everything that is observing, and gives the sink of the trace that was open. -/
def shutdown (vm : Vm) : Option Sink × Vm :=
  let (sink, vm) := vm.profile (vm.profiler.shutdown vm.key)
  (sink, vm.note [.vmShutDown])

end Vm

end TracedMachine
