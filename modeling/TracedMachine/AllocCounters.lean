import TracedMachine.Event

/-!
# AllocCounters

Counts of what happens to memory.  Counters are kept for a whole process and for single threads;
both observe the same events.  Counting has to be started, which sets every counter to zero, and
stopping keeps the counts.  Counts and sums are words of 64 bits.
-/

namespace TracedMachine

/-- How often, and how many bytes in all: allocated, failed to allocate, freed. -/
structure Tally where
  allocCount : UInt64 := 0
  allocSize : UInt64 := 0
  failedCount : UInt64 := 0
  failedSize : UInt64 := 0
  freeCount : UInt64 := 0
  freeSize : UInt64 := 0
deriving DecidableEq, Repr

namespace Tally

/-- One more allocation. -/
def allocated (t : Tally) (bytes : Nat) : Tally :=
  { t with allocCount := t.allocCount + 1, allocSize := t.allocSize + bytes.toUInt64 }

/-- One more failed allocation. -/
def failed (t : Tally) (bytes : Nat) : Tally :=
  { t with failedCount := t.failedCount + 1, failedSize := t.failedSize + bytes.toUInt64 }

/-- One more object freed. -/
def freed (t : Tally) (bytes : Nat) : Tally :=
  { t with freeCount := t.freeCount + 1, freeSize := t.freeSize + bytes.toUInt64 }

end Tally

/-- What has been counted. -/
structure AllocStats where
  heap : Tally := {}
  collections : UInt64 := 0
  /-- Memory outside the heap, if it is counted. -/
  external : Option Tally
deriving DecidableEq, Repr

/-- Counts of what happens to memory, kept while counting is on. -/
structure AllocCounters where
  enabled : Bool := false
  stats : AllocStats
deriving DecidableEq, Repr

namespace AllocStats

/-- All counts zero. -/
def zero (trackExternal : Bool) : AllocStats :=
  { external := if trackExternal then some {} else none }

/-- Counts one event. -/
def count (s : AllocStats) : AllocEvent → AllocStats
  | .allocated bytes => { s with heap := s.heap.allocated bytes }
  | .failed bytes => { s with heap := s.heap.failed bytes }
  | .freed bytes => { s with heap := s.heap.freed bytes }
  | .collected => { s with collections := s.collections + 1 }
  | .externalAllocated bytes => { s with external := s.external.map (·.allocated bytes) }
  | .externalFailed bytes => { s with external := s.external.map (·.failed bytes) }
  | .externalFreed bytes => { s with external := s.external.map (·.freed bytes) }

end AllocStats

namespace AllocCounters

/-- Counters that do not count yet. -/
def new (trackExternal : Bool) : AllocCounters := { stats := .zero trackExternal }

/-- Memory outside the heap is counted. -/
def tracksExternal (c : AllocCounters) : Bool := c.stats.external.isSome

/-- Counts from zero. -/
def start (c : AllocCounters) : AllocCounters :=
  { enabled := true, stats := .zero c.tracksExternal }

/-- Counts no more. -/
def stop (c : AllocCounters) : AllocCounters := { c with enabled := false }

/-- Counts one event, if counting is on. -/
def record (c : AllocCounters) (e : AllocEvent) : AllocCounters :=
  if c.enabled then { c with stats := c.stats.count e } else c

/-- Observes an event of the machine. -/
def observe (c : AllocCounters) : Event → AllocCounters
  | .alloc e => c.record e
  | _ => c

end AllocCounters

end TracedMachine
