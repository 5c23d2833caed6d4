import TracedMachine.AllocCounters
import TracedMachine.Trace.Entry

/-!
# ThreadList

Threads by the order in which they were attached.  Each gets a number for trace records: one to
255 in turn, then one again.  A detached thread keeps its place in the order and its counters,
but is dead and is no longer listed.
-/

namespace TracedMachine

/-- What a thread does. -/
inductive ThreadState where
  | created
  | running
  | dead
deriving DecidableEq, Repr

/-- A thread. -/
structure Thread where
  id : ThreadId
  name : String
  state : ThreadState := .created
  /-- Counts of the thread's own allocations. -/
  alloc : AllocCounters
deriving DecidableEq, Repr

/-- The thread has not been detached. -/
def Thread.isAttached (t : Thread) : Bool := t.state ≠ .dead

/-- All threads that were ever attached, in order. -/
structure ThreadList where
  threads : Array Thread := #[]
deriving DecidableEq, Repr

namespace ThreadList

/-- The number of the next thread in trace records; attached threads are counted in 32 bits. -/
def nextId (l : ThreadList) : ThreadId := ⟨(l.threads.size % 0x100000000 % 255 + 1).toUInt8⟩

/-- Attaches a thread, and gives its place in the order. -/
def attach (l : ThreadList) (name : String) (trackExternal : Bool) :
    Outcome ThreadList Notice Nat :=
  { value := l.threads.size
    state := ⟨l.threads.push { id := l.nextId, name, alloc := .new trackExternal }⟩
    events := [.attached l.nextId name] }

/-- The thread at a place. -/
def get? (l : ThreadList) (place : Nat) : Option Thread := l.threads[place]?

/-- Changes the thread at a place. -/
def modify (l : ThreadList) (place : Nat) (change : Thread → Thread) : ThreadList :=
  ⟨l.threads.modify place change⟩

/-- Sets what a thread does. -/
def setState (l : ThreadList) (place : Nat) (state : ThreadState) : ThreadList :=
  l.modify place fun t => { t with state }

/-- Detaches a thread. -/
def detach (l : ThreadList) (place : Nat) : ThreadList := l.setState place .dead

/-- The threads that are attached. -/
def attached (l : ThreadList) : List Thread := l.threads.toList.filter (·.isAttached)

/-- The number of threads that are attached. -/
def size (l : ThreadList) : Nat := l.attached.length

/-- The attached threads, as a trace key lists them. -/
def entries (l : ThreadList) : List Trace.ThreadEntry :=
  l.attached.map fun t => { id := t.id, name := t.name }

end ThreadList

end TracedMachine
