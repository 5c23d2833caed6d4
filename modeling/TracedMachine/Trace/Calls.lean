import TracedMachine.Trace.File

/-!
# Trace — Calls

How often the methods of a trace were called.  `callCounts` has one row for each method that a
record enters, the methods with the most calls first and equally frequent ones by id.  It depends
on the records only through how many there are of each kind.
-/

namespace TracedMachine

namespace Trace

/-- How often a method was called, and how often a throwable left it. -/
structure CallCount where
  method : MethodId
  calls : Nat
  unwound : Nat
deriving DecidableEq, Repr

/-- The first row has more calls, or as many and no higher id. -/
def CallCount.precedes (a b : CallCount) : Bool :=
  decide (b.calls < a.calls ∨ a.calls = b.calls ∧ a.method.raw ≤ b.method.raw)

/-- The number of records of a method with an action. -/
def countOf (records : List Record) (id : MethodId) (action : Action) : Nat :=
  records.countP fun r => r.method = id ∧ r.action = action

/-- The ids that records enter, in ascending order, each once. -/
def enteredIds (records : List Record) : List MethodId :=
  records.foldl (fun ids r => if r.action = .enter then r.method.insert ids else ids) []

/-- The row of a method. -/
def callCount (records : List Record) (id : MethodId) : CallCount :=
  { method := id, calls := countOf records id .enter, unwound := countOf records id .unwind }

/-- How often the methods of a trace were called. -/
def callCounts (records : List Record) : List CallCount :=
  ((enteredIds records).map (callCount records)).mergeSort CallCount.precedes

end Trace

end TracedMachine
