import TracedMachine.Event
import TracedMachine.TraceError

/-!
# EventStream

Method events for an emulator.  A consumer is connected by a queue that holds a fixed number of
events; connecting another one replaces it, and what its queue holds can still be received.  An
event that finds no consumer, no receiver, or a full queue is dropped and counted.

Events flow while the stream has been started more often than stopped.
-/

namespace TracedMachine

/-- What happened to a method. -/
structure MethodEvent where
  method : MethodId
  action : Action
deriving DecidableEq, Repr

/-- A consumer's queue. -/
structure EventQueue where
  /-- The number of events the queue holds. -/
  capacity : Nat
  /-- All events that were sent, the oldest first. -/
  sent : Array MethodEvent := #[]
  /-- The number of events that have left the queue; they are the oldest. -/
  gone : Nat := 0
  /-- The receiver is there. -/
  alive : Bool := true
  gone_le : gone ≤ sent.size := by exact Nat.zero_le _
deriving DecidableEq, Repr

namespace EventQueue

/-- The events in the queue, the oldest first. -/
def events (q : EventQueue) : List MethodEvent := q.sent.toList.drop q.gone

/-- The number of events in the queue. -/
def size (q : EventQueue) : Nat := q.sent.size - q.gone

/-- The queue takes an event now. -/
def accepts (q : EventQueue) : Bool := q.alive && q.size < q.capacity

/-- Puts an event into the queue. -/
def push (q : EventQueue) (e : MethodEvent) : EventQueue :=
  { q with sent := q.sent.push e, gone_le := by simpa using Nat.le_succ_of_le q.gone_le }

/-- The oldest event in the queue. -/
def oldest? (q : EventQueue) : Option MethodEvent := q.sent[q.gone]?

/-- The queue without its oldest event. -/
def pop (q : EventQueue) : EventQueue :=
  if h : q.gone < q.sent.size then { q with gone := q.gone + 1, gone_le := h } else q

/-- The queue without its events. -/
def clear (q : EventQueue) : EventQueue :=
  { q with gone := q.sent.size, gone_le := Nat.le_refl _ }

/-- The queue after its receiver has gone. -/
def close (q : EventQueue) : EventQueue := { q.clear with alive := false }

@[simp] theorem length_events (q : EventQueue) : q.events.length = q.size := by
  simp [events, size]

@[simp] theorem events_push (q : EventQueue) (e : MethodEvent) :
    (q.push e).events = q.events ++ [e] := by
  have h := q.gone_le
  simp [events, push, List.drop_append_of_le_length h]

@[simp] theorem head?_events (q : EventQueue) : q.events.head? = q.oldest? := by
  simp [events, oldest?]

@[simp] theorem events_pop (q : EventQueue) : q.pop.events = q.events.tail := by
  by_cases h : q.gone < q.sent.size
  · simp [events, pop, h]
  · have e : q.sent.toList.drop q.gone = [] := List.drop_of_length_le (Nat.le_of_not_lt h)
    simp [events, pop, h, e]

@[simp] theorem events_clear (q : EventQueue) : q.clear.events = [] := by
  simp [events, clear]

end EventQueue

/-- What a receiver finds. -/
inductive Received where
  | event (e : MethodEvent)
  /-- Nothing now. -/
  | empty
  /-- Nothing now or later. -/
  | disconnected
deriving DecidableEq, Repr

/-- Method events for an emulator. -/
structure EventStream where
  /-- How often the stream was started and not stopped; no more than it was started
  (`Profiler.GateKept.fits`). -/
  enableCount : Nat := 0
  /-- The queues of all consumers, in the order in which they were connected. -/
  queues : Array EventQueue := #[]
  /-- The number of the consumer's queue. -/
  consumer : Option Nat := none
  emitted : UInt64 := 0
  dropped : UInt64 := 0
deriving DecidableEq, Repr

namespace EventStream

/-- Events flow. -/
def enabled (s : EventStream) : Bool := s.enableCount ≠ 0

/-- Connects a consumer, and gives the number of its queue. -/
def connect (s : EventStream) (capacity : Nat) : Outcome EventStream Notice Nat :=
  { value := s.queues.size
    state := { s with queues := s.queues.push { capacity }, consumer := some s.queues.size }
    events := [.consumerAttached capacity] }

/-- Lets the consumer go. -/
def disconnect (s : EventStream) : EventStream := { s with consumer := none }

/-- Starts the stream, once more. -/
def start (s : EventStream) : Outcome EventStream Notice Nat :=
  let n := s.enableCount + 1
  { value := n, state := { s with enableCount := n }, events := [.emulatorEnabled n] }

/-- Takes one start back. -/
def stop (s : EventStream) : Outcome EventStream Notice (Except TraceError Nat) :=
  match s.enableCount with
  | 0 => { value := .error .notTracing, state := s, events := [] }
  | n + 1 =>
    { value := .ok n, state := { s with enableCount := n }, events := [.emulatorDisabled n] }

/-- Takes all starts back. -/
def disable (s : EventStream) : EventStream := { s with enableCount := 0 }

/-- The consumer's queue takes an event now. -/
def accepts (s : EventStream) : Bool :=
  (s.consumer.bind fun n => s.queues[n]?).any (·.accepts)

/-- Sends an event, if events flow. -/
def emit (s : EventStream) (e : MethodEvent) : EventStream :=
  if !s.enabled then s
  else
    match s.consumer with
    | none => { s with dropped := s.dropped + 1 }
    | some n =>
      if s.accepts then
        { s with queues := s.queues.modify n (·.push e), emitted := s.emitted + 1 }
      else { s with dropped := s.dropped + 1 }

/-- Receives the oldest event of a queue. -/
def receive (s : EventStream) (n : Nat) : Received × EventStream :=
  match s.queues[n]?.bind (·.oldest?) with
  | some e => (.event e, { s with queues := s.queues.modify n (·.pop) })
  | none => (if s.consumer = some n then .empty else .disconnected, s)

/-- Receives all events of a queue. -/
def drain (s : EventStream) (n : Nat) : List MethodEvent × EventStream :=
  ((s.queues[n]?.map (·.events)).getD [], { s with queues := s.queues.modify n (·.clear) })

/-- Drops the receiver of a queue, and what the queue holds. -/
def dropReceiver (s : EventStream) (n : Nat) : EventStream :=
  { s with queues := s.queues.modify n (·.close) }

end EventStream

end TracedMachine
