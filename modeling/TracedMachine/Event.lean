import TracedMachine.MethodId
import TracedMachine.Notice

/-!
# Event

What the machine reports while it works.  The heap, the class table and the interpreter do not
know who listens: they return the events of each operation in order, and observers such as the
profiler and the allocation counters fold over them.  The same operations with every report made
where it is due, to observers that are carried along, are in `Work`, and they come to the same
(`Work.run_heapOp`, `Work.run_advance`).
-/

namespace TracedMachine

/-- What happens to memory. -/
inductive AllocEvent where
  /-- An object of so many bytes was allocated. -/
  | allocated (bytes : Nat)
  /-- An object of so many bytes could not be allocated. -/
  | failed (bytes : Nat)
  /-- An object of so many bytes was freed. -/
  | freed (bytes : Nat)
  /-- A collection ran. -/
  | collected
  /-- Memory outside the heap was allocated. -/
  | externalAllocated (bytes : Nat)
  /-- Memory outside the heap could not be allocated. -/
  | externalFailed (bytes : Nat)
  /-- Memory outside the heap was freed. -/
  | externalFreed (bytes : Nat)
deriving DecidableEq, Repr

/-- Work of the machine itself that traces show as calls of a synthetic method. -/
inductive Pass where
  /-- A collection. -/
  | collection
  /-- The preparation of a class. -/
  | classPreparation
deriving DecidableEq, Repr

/-- The synthetic method of a pass. -/
def Pass.method : Pass → MethodId
  | collection => .collection
  | classPreparation => .classPreparation

/-- What the machine reports while it works. -/
inductive Event where
  /-- A method is entered or left. -/
  | method (id : MethodId) (action : Action)
  /-- An instruction is about to run. -/
  | instruction (op : Opcode)
  /-- A pass begins. -/
  | passBegan (pass : Pass)
  /-- A pass ends. -/
  | passEnded (pass : Pass)
  /-- Something happens to memory. -/
  | alloc (event : AllocEvent)
  /-- Something for the log. -/
  | notice (n : Notice)
deriving DecidableEq, Repr

/-- What an operation on a state answers, the state it leaves, and what it reports. -/
structure Outcome (σ ε α : Type) where
  value : α
  state : σ
  events : List ε

end TracedMachine
