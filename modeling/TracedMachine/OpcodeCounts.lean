import TracedMachine.Opcode
import TracedMachine.TraceError

/-!
# OpcodeCounts

How often each operation ran.  Counting is on while it has been started more often than stopped.
There is a counter for every byte, whether an operation has it or not.
-/

namespace TracedMachine

/-- How often each operation ran. -/
structure OpcodeCounts where
  /-- How often counting was started and not stopped; no more than it was started
  (`Profiler.GateKept.fits`). -/
  enableCount : Nat := 0
  /-- The counters, by byte. -/
  counts : Array UInt64 := Array.replicate 256 0
deriving DecidableEq, Repr

namespace OpcodeCounts

/-- Counting is on. -/
def enabled (c : OpcodeCounts) : Bool := c.enableCount ≠ 0

/-- Starts counting, once more. -/
def start (c : OpcodeCounts) : OpcodeCounts := { c with enableCount := c.enableCount + 1 }

/-- Takes one start back. -/
def stop (c : OpcodeCounts) : Except TraceError OpcodeCounts :=
  match c.enableCount with
  | 0 => .error .notCounting
  | n + 1 => .ok { c with enableCount := n }

/-- Takes all starts back. -/
def disable (c : OpcodeCounts) : OpcodeCounts := { c with enableCount := 0 }

/-- Counts one operation, if counting is on. -/
def count (c : OpcodeCounts) (op : Opcode) : OpcodeCounts :=
  if c.enabled then { c with counts := c.counts.modify op.byte.toNat (· + 1) } else c

/-- How often an operation ran. -/
def get (c : OpcodeCounts) (op : Opcode) : UInt64 := c.counts.getD op.byte.toNat 0

/-- Sets all counters to zero. -/
def reset (c : OpcodeCounts) : OpcodeCounts :=
  { c with counts := Array.replicate c.counts.size 0 }

end OpcodeCounts

end TracedMachine
