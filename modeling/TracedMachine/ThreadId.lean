/-!
# ThreadId

The numbers of threads in trace records.
-/

namespace TracedMachine

/-- The number of a thread in trace records. -/
structure ThreadId where
  raw : UInt8
deriving DecidableEq, Repr

end TracedMachine
