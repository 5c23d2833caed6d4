import TracedMachine.EventStream
import Mathlib.Logic.Basic

/-!
# Proofs — EventStream

What becomes of the events that are sent to an emulator.  A `StreamOp` is something that is asked of
a stream, or done with one of the receivers that it has given out.  `moments` lists the operations
of a history, each with the stream that it meets; what was accepted for a receiver, and what was
received from it, is read off this list.

**Conservation** (`events_are_conserved`).  Until a receiver is dropped, what was received from it,
followed by what is in its queue, is what was accepted for it, in order; and its queue never holds
more than its capacity.  An event is accepted if and only if events flow, there is a consumer, its
receiver was not dropped and its queue is not full.  The two counters count the events that were
accepted, and all that were offered while events flowed.

`Conserved` is the invariant.  Of one operation it needs what happens to a queue (`QueueStep`,
`queue_perform`), that new queues come from connecting (`queue_new`), and what is counted
(`counters_perform`).  What sending an event can come to is said once (`Sends`, `emit_sends`).
-/

namespace TracedMachine

/-- Something that is asked of a stream, or done with the receiver of one of its queues. -/
inductive StreamOp where
  | start
  | stop
  | connect (capacity : Nat)
  | disconnect
  | emit (e : MethodEvent)
  | receive (n : Nat)
  | drain (n : Nat)
  | drop (n : Nat)
deriving DecidableEq

/-- The event that a receiver finds. -/
def Received.event? : Received → Option MethodEvent
  | event e => some e
  | _ => none

namespace StreamOp

/-- Does an operation. -/
def perform (op : StreamOp) (s : EventStream) : EventStream :=
  match op with
  | start => s.start.state
  | stop => s.stop.state
  | connect capacity => (s.connect capacity).state
  | disconnect => s.disconnect
  | emit e => s.emit e
  | receive n => (s.receive n).2
  | drain n => (s.drain n).2
  | drop n => s.dropReceiver n

/-- The capacity of the queue that an operation makes. -/
def capacity? : StreamOp → Option Nat
  | connect capacity => some capacity
  | _ => none

end StreamOp

/-- An operation and the stream that it meets. -/
structure StreamMoment where
  stream : EventStream
  op : StreamOp

namespace StreamMoment

/-- The event that is sent and accepted, with the number of the receiver that it is for. -/
def delivery? (x : StreamMoment) : Option (Nat × MethodEvent) :=
  match x.op with
  | .emit e =>
    if (x.stream.emit e).emitted = x.stream.emitted then none
    else x.stream.consumer.map fun n => (n, e)
  | _ => none

/-- An event is sent while events flow. -/
def offers (x : StreamMoment) : Bool :=
  match x.op with
  | .emit _ => x.stream.enabled
  | _ => false

/-- What is received from a receiver. -/
def received (n : Nat) (x : StreamMoment) : List MethodEvent :=
  match x.op with
  | .receive k => if k = n then (x.stream.receive n).1.event?.toList else []
  | .drain k => if k = n then (x.stream.drain n).1 else []
  | _ => []

/-- A receiver is dropped. -/
def drops (n : Nat) (x : StreamMoment) : Prop := x.op = .drop n ∧ n < x.stream.queues.size

/-- The consumer that an operation leaves behind, if it is about the consumer. -/
def consumer? (x : StreamMoment) : Option (Option Nat) :=
  match x.op with
  | .connect capacity => some (some (x.stream.connect capacity).value)
  | .disconnect => some none
  | _ => none

/-- The stream is started. -/
def starts (x : StreamMoment) : Bool := x.op = .start

/-- A start is taken back. -/
def stops (x : StreamMoment) : Bool := x.op = .stop ∧ x.stream.enabled

end StreamMoment

namespace EventQueue

variable (q : EventQueue)

@[simp] theorem alive_push (e : MethodEvent) : (q.push e).alive = q.alive := rfl
@[simp] theorem alive_clear : q.clear.alive = q.alive := rfl
@[simp] theorem alive_close : q.close.alive = false := rfl
@[simp] theorem events_close : q.close.events = [] := q.events_clear

@[simp] theorem alive_pop : q.pop.alive = q.alive := by
  unfold pop
  split <;> rfl

@[simp] theorem capacity_pop : q.pop.capacity = q.capacity := by
  unfold pop
  split <;> rfl

end EventQueue

namespace EventStream

/-- The stream after a history. -/
def after (s : EventStream) : List StreamOp → EventStream
  | [] => s
  | op :: ops => (op.perform s).after ops

/-- The operations of a history, each with the stream that it meets. -/
def moments (s : EventStream) : List StreamOp → List StreamMoment
  | [] => []
  | op :: ops => ⟨s, op⟩ :: (op.perform s).moments ops

/-- All that was accepted, for whatever receiver. -/
def deliveries (log : List StreamMoment) : List (Nat × MethodEvent) :=
  log.filterMap StreamMoment.delivery?

/-- All that was accepted for a receiver. -/
def accepted (n : Nat) (log : List StreamMoment) : List MethodEvent :=
  ((deliveries log).filter (·.1 = n)).map (·.2)

/-- All that was received from a receiver. -/
def received (n : Nat) (log : List StreamMoment) : List MethodEvent :=
  log.flatMap (StreamMoment.received n)

/-- The capacities of the queues that were made, in order. -/
def capacities (log : List StreamMoment) : List Nat := log.filterMap (·.op.capacity?)

/-- A receiver was dropped. -/
def Dropped (n : Nat) (log : List StreamMoment) : Prop := ∃ x ∈ log, x.drops n

variable {s : EventStream} {x : StreamMoment} {log : List StreamMoment} {n : Nat}

/-! ### Sending an event -/

theorem accepts_iff : s.accepts = true ↔ ∃ n q, s.consumer = some n ∧ s.queues[n]? = some q ∧
    q.alive = true ∧ q.size < q.capacity := by
  unfold accepts
  cases s.consumer with
  | none => simp
  | some n => cases hq : s.queues[n]? <;> simp [hq, EventQueue.accepts]

/-- The three things that sending an event can come to. -/
inductive Sends (s : EventStream) (e : MethodEvent) :
    EventStream → Option (Nat × MethodEvent) → Prop where
  /-- Events do not flow. -/
  | off (disabled : s.enabled = false) : Sends s e s none
  /-- The event is dropped. -/
  | dropped (enabled : s.enabled = true) (refuses : s.accepts = false) :
      Sends s e { s with dropped := s.dropped + 1 } none
  /-- The event goes into the consumer's queue. -/
  | accepted {n : Nat} {q : EventQueue} (enabled : s.enabled = true) (accepts : s.accepts = true)
      (current : s.consumer = some n) (queue : s.queues[n]? = some q) (room : q.size < q.capacity) :
      Sends s e { s with queues := s.queues.modify n (·.push e), emitted := s.emitted + 1 }
        (some (n, e))

theorem emit_sends (s : EventStream) (e : MethodEvent) :
    Sends s e (s.emit e) (StreamMoment.delivery? ⟨s, .emit e⟩) := by
  show Sends s e (s.emit e)
    (if (s.emit e).emitted = s.emitted then none else s.consumer.map fun n => (n, e))
  cases henabled : s.enabled with
  | false =>
      have hemit : s.emit e = s := by
        rw [emit, henabled]
        rfl
      rw [hemit, if_pos rfl]
      exact .off henabled
  | true =>
      cases haccepts : s.accepts with
      | false =>
          have hemit : s.emit e = { s with dropped := s.dropped + 1 } := by
            unfold emit
            rw [henabled, haccepts]
            cases s.consumer <;> rfl
          rw [hemit, if_pos rfl]
          exact .dropped henabled haccepts
      | true =>
          obtain ⟨n, q, hconsumer, hq, -, hroom⟩ := accepts_iff.mp haccepts
          have hemit : s.emit e =
              { s with queues := s.queues.modify n (·.push e), emitted := s.emitted + 1 } := by
            unfold emit
            rw [henabled, haccepts]
            simp [hconsumer]
          have hdelivery : s.consumer.map (fun n => (n, e)) = some (n, e) := by
            rw [hconsumer]
            rfl
          rw [hemit, hdelivery, if_neg (by simp)]
          exact .accepted henabled haccepts hconsumer hq hroom

/-- An event is accepted if it is sent while events flow and the consumer takes it. -/
theorem emitted_emit_ne_iff (s : EventStream) (e : MethodEvent) :
    (s.emit e).emitted ≠ s.emitted ↔ s.enabled = true ∧ s.accepts = true := by
  have hsends := s.emit_sends e
  generalize s.emit e = s', StreamMoment.delivery? ⟨s, .emit e⟩ = delivery at hsends
  cases hsends with
  | off disabled => simp [disabled]
  | dropped enabled refuses => simp [refuses]
  | accepted enabled accepts => simp [enabled, accepts]

theorem accepted_append (n : Nat) (xs ys : List StreamMoment) :
    accepted n (xs ++ ys) = accepted n xs ++ accepted n ys := by
  simp only [accepted, deliveries, List.filterMap_append, List.filter_append, List.map_append]

theorem received_append (n : Nat) (xs ys : List StreamMoment) :
    received n (xs ++ ys) = received n xs ++ received n ys :=
  List.flatMap_append

@[simp] theorem received_singleton (n : Nat) (x : StreamMoment) :
    received n [x] = x.received n := List.flatMap_singleton _ _

/-- What is accepted at one moment. -/
theorem accepted_none (h : x.delivery? = none) (n : Nat) : accepted n [x] = [] := by
  simp [accepted, deliveries, h]

theorem accepted_some {k : Nat} {e : MethodEvent} (h : x.delivery? = some (k, e)) (n : Nat) :
    accepted n [x] = if k = n then [e] else [] := by
  by_cases hk : k = n <;> simp [accepted, deliveries, h, hk]

/-! ### One queue, one operation -/

/-- What an operation does to the queue of a receiver. -/
structure QueueStep (n : Nat) (x : StreamMoment) (q q' : EventQueue) : Prop where
  capacity_eq : q'.capacity = q.capacity
  alive_iff : q'.alive = true ↔ q.alive = true ∧ x.op ≠ .drop n
  /-- What was in the queue and what comes in is what goes out and what stays. -/
  conserved : q'.alive = true → q.events ++ accepted n [x] = x.received n ++ q'.events
  size_le : q.events.length ≤ q.capacity → q'.events.length ≤ q.capacity

/-- An operation that leaves a queue. -/
theorem QueueStep.same {q : EventQueue} (haccepted : accepted n [x] = [])
    (hreceived : x.received n = []) (hdrop : x.op ≠ .drop n) : QueueStep n x q q where
  capacity_eq := rfl
  alive_iff := (and_iff_left hdrop).symm
  conserved _ := by rw [haccepted, hreceived, List.append_nil, List.nil_append]
  size_le := id

theorem queues_stop (s : EventStream) : s.stop.state.queues = s.queues := by
  unfold stop
  split <;> rfl

theorem getElem?_modify_some {queues : Array EventQueue} {q : EventQueue}
    (hq : queues[n]? = some q) (k : Nat) (f : EventQueue → EventQueue) :
    (queues.modify k f)[n]? = some (if k = n then f q else q) := by
  rw [Array.getElem?_modify, hq]
  split <;> rfl

/-- **What happens to a queue.** -/
theorem queue_perform {q : EventQueue} (hq : x.stream.queues[n]? = some q) :
    ∃ q', (x.op.perform x.stream).queues[n]? = some q' ∧ QueueStep n x q q' := by
  obtain ⟨s, op⟩ := x
  cases op with
  | start | disconnect => exact ⟨q, hq, .same rfl rfl (by simp)⟩
  | stop =>
      refine ⟨q, ?_, .same rfl rfl (by simp)⟩
      rw [StreamOp.perform, queues_stop]
      exact hq
  | connect capacity =>
      refine ⟨q, ?_, .same rfl rfl (by simp)⟩
      have hlt := (Array.getElem?_eq_some_iff.mp hq).1
      simp only [StreamOp.perform, connect, Array.getElem?_push, if_neg (Nat.ne_of_lt hlt)]
      exact hq
  | emit e =>
      have hsends := s.emit_sends e
      rw [StreamOp.perform]
      generalize s.emit e = s', hdelivery : StreamMoment.delivery? ⟨s, .emit e⟩ = delivery at hsends
      cases hsends with
      | off | dropped => exact ⟨q, hq, .same (accepted_none hdelivery n) rfl (by simp)⟩
      | @accepted k p _ _ _ hp hroom =>
          have haccepted := accepted_some hdelivery n
          refine ⟨_, getElem?_modify_some hq k _, ?_⟩
          by_cases hk : k = n
          · subst hk
            obtain rfl : p = q := Option.some.inj (hp.symm.trans hq)
            rw [if_pos rfl]
            refine ⟨rfl, by simp, fun _ => ?_, fun _ => ?_⟩
            · rw [haccepted, if_pos rfl, EventQueue.events_push]
              rfl
            · rw [EventQueue.events_push, List.length_append, EventQueue.length_events]
              exact hroom
          · rw [if_neg hk]
            exact .same (haccepted.trans (if_neg hk)) rfl (by simp)
  | receive k =>
      rw [StreamOp.perform, receive]
      by_cases hk : k = n
      · subst hk
        simp only [hq, Option.bind_some]
        cases holdest : q.oldest? with
        | none =>
            -- an empty queue: what is answered instead of an event depends on the consumer
            refine ⟨q, hq, .same rfl ?_ (by simp)⟩
            simp only [StreamMoment.received, receive, hq, Option.bind_some, holdest, if_pos]
            split <;> rfl
        | some e =>
            refine ⟨_, getElem?_modify_some hq k _, ?_⟩
            rw [if_pos rfl]
            obtain ⟨rest, hrest⟩ := List.head?_eq_some_iff.mp (q.head?_events.trans holdest)
            have hpop : q.pop.events = rest := by
              rw [EventQueue.events_pop, hrest]
              rfl
            refine ⟨q.capacity_pop, by simp, fun _ => ?_, fun hsize => ?_⟩
            · rw [accepted_none rfl, hrest, hpop]
              simp [StreamMoment.received, receive, hq, holdest, Received.event?]
            · rw [hrest] at hsize
              rw [hpop]
              exact Nat.le_of_succ_le hsize
      · cases s.queues[k]?.bind (·.oldest?) with
        | none => exact ⟨q, hq, .same rfl (if_neg hk) (by simp)⟩
        | some e =>
            refine ⟨_, getElem?_modify_some hq k _, ?_⟩
            rw [if_neg hk]
            exact .same rfl (if_neg hk) (by simp)
  | drain k =>
      refine ⟨_, getElem?_modify_some hq k _, ?_⟩
      by_cases hk : k = n
      · subst hk
        rw [if_pos rfl]
        refine ⟨rfl, by simp, fun _ => ?_, fun _ => by simp⟩
        rw [accepted_none rfl]
        simp [StreamMoment.received, drain, hq]
      · rw [if_neg hk]
        exact .same rfl (if_neg hk) (by simp)
  | drop k =>
      refine ⟨_, getElem?_modify_some hq k _, ?_⟩
      by_cases hk : k = n
      · -- what was in the queue is gone, so nothing is said of a receiver that was dropped
        subst hk
        rw [if_pos rfl]
        exact ⟨rfl, by simp, fun halive => Bool.noConfusion halive, fun _ => by simp⟩
      · rw [if_neg hk]
        exact .same rfl rfl (by simpa using hk)

theorem size_queues_perform (op : StreamOp) (s : EventStream) :
    (op.perform s).queues.size = s.queues.size + op.capacity?.toList.length := by
  cases op with
  | start | disconnect => rfl
  | stop => exact congrArg Array.size s.queues_stop
  | connect capacity => exact Array.size_push _
  | emit e =>
      have hsends := s.emit_sends e
      rw [StreamOp.perform]
      generalize s.emit e = s', StreamMoment.delivery? ⟨s, .emit e⟩ = delivery at hsends
      cases hsends with
      | off | dropped => rfl
      | accepted => exact Array.size_modify
  | receive n =>
      rw [StreamOp.perform, receive]
      split
      · exact Array.size_modify
      · rfl
  | drain n | drop n => exact Array.size_modify

/-- A queue that was not there before was made empty, by connecting. -/
theorem queue_new {q : EventQueue} (hnone : x.stream.queues[n]? = none)
    (hq : (x.op.perform x.stream).queues[n]? = some q) :
    n = x.stream.queues.size ∧ x.op.capacity? = some q.capacity ∧ q.alive = true ∧
      q.events = [] := by
  obtain ⟨s, op⟩ := x
  have hle : s.queues.size ≤ n := Array.getElem?_eq_none_iff.mp hnone
  have hlt : n < (op.perform s).queues.size := (Array.getElem?_eq_some_iff.mp hq).1
  rw [size_queues_perform] at hlt
  cases op with
  | connect capacity =>
      obtain rfl : n = s.queues.size := Nat.le_antisymm (Nat.le_of_lt_succ hlt) hle
      rw [StreamOp.perform, connect, Array.getElem?_push_size] at hq
      cases hq
      exact ⟨rfl, rfl, rfl, rfl⟩
  | _ => exact absurd hlt (Nat.not_lt.mpr hle)

/-- Nothing is accepted for, received from or done to a receiver that is not there. -/
theorem untouched_of_none (hnone : x.stream.queues[n]? = none) :
    ¬ x.drops n ∧ accepted n [x] = [] ∧ x.received n = [] := by
  obtain ⟨s, op⟩ := x
  refine ⟨fun hdrops => absurd hdrops.2 (Nat.not_lt.mpr (Array.getElem?_eq_none_iff.mp hnone)), ?_⟩
  cases op with
  | emit e =>
      refine ⟨?_, rfl⟩
      have hsends := s.emit_sends e
      generalize s.emit e = s', hdelivery : StreamMoment.delivery? ⟨s, .emit e⟩ = delivery at hsends
      cases hsends with
      | off | dropped => exact accepted_none hdelivery n
      | @accepted k q _ _ _ hq =>
          rw [accepted_some hdelivery]
          refine if_neg ?_
          rintro rfl
          exact Option.some_ne_none q (hq.symm.trans hnone)
  | receive k =>
      refine ⟨rfl, ?_⟩
      simp only [StreamMoment.received, receive, hnone, Option.bind_none]
      split
      · split <;> rfl
      · rfl
  | drain k =>
      refine ⟨rfl, ?_⟩
      simp [StreamMoment.received, drain, hnone]
  | _ => exact ⟨rfl, rfl⟩

/-! ### The rest of a stream, one operation -/

/-- Receiving an event changes queues only. -/
theorem receive_queues (s : EventStream) (n : Nat) :
    ∃ queues, (s.receive n).2 = { s with queues } := by
  unfold receive
  split
  · exact ⟨_, rfl⟩
  · exact ⟨s.queues, rfl⟩

/-- Sending an event changes queues and counters only. -/
theorem emit_kept (s : EventStream) (e : MethodEvent) :
    (s.emit e).enableCount = s.enableCount ∧ (s.emit e).consumer = s.consumer := by
  have hsends := s.emit_sends e
  generalize s.emit e = s', StreamMoment.delivery? ⟨s, .emit e⟩ = delivery at hsends
  cases hsends with
  | off | dropped | accepted => exact ⟨rfl, rfl⟩

theorem enableCount_perform (s : EventStream) (op : StreamOp) :
    (op.perform s).enableCount + [(⟨s, op⟩ : StreamMoment)].countP StreamMoment.stops =
      s.enableCount + [(⟨s, op⟩ : StreamMoment)].countP StreamMoment.starts := by
  cases op with
  | start => rfl
  | stop =>
      cases hcount : s.enableCount <;>
        simp [StreamOp.perform, stop, hcount, StreamMoment.stops, StreamMoment.starts, enabled]
  | emit e => exact (s.emit_kept e).1
  | receive n =>
      obtain ⟨queues, hreceive⟩ := s.receive_queues n
      rw [StreamOp.perform, hreceive]
      rfl
  | _ => rfl

theorem consumer_perform (s : EventStream) (op : StreamOp) :
    (op.perform s).consumer = (StreamMoment.consumer? ⟨s, op⟩).getD s.consumer := by
  cases op with
  | stop =>
      rw [StreamOp.perform, stop]
      split <;> rfl
  | emit e => exact (s.emit_kept e).2
  | receive n =>
      obtain ⟨queues, hreceive⟩ := s.receive_queues n
      rw [StreamOp.perform, hreceive]
      rfl
  | _ => rfl

/-- The two counters count what is accepted and what is offered. -/
theorem counters_perform (s : EventStream) (op : StreamOp) :
    (op.perform s).emitted = s.emitted + UInt64.ofNat (deliveries [⟨s, op⟩]).length ∧
      (op.perform s).emitted + (op.perform s).dropped = s.emitted + s.dropped +
        UInt64.ofNat ([(⟨s, op⟩ : StreamMoment)].countP StreamMoment.offers) := by
  cases op with
  | stop =>
      rw [StreamOp.perform, stop]
      split <;> exact ⟨(UInt64.add_zero _).symm, (UInt64.add_zero _).symm⟩
  | emit e =>
      have hsends := s.emit_sends e
      have hoffers : [(⟨s, .emit e⟩ : StreamMoment)].countP StreamMoment.offers =
          if s.enabled then 1 else 0 := by
        rw [List.countP_singleton]
        rfl
      rw [StreamOp.perform, hoffers]
      generalize s.emit e = s', hdelivery : StreamMoment.delivery? ⟨s, .emit e⟩ = delivery at hsends
      cases hsends with
      | off disabled => simp [deliveries, hdelivery, disabled]
      | dropped enabled => simp [deliveries, hdelivery, enabled, UInt64.add_assoc]
      | accepted enabled =>
          refine ⟨by simp [deliveries, hdelivery], ?_⟩
          rw [if_pos enabled, UInt64.add_assoc, UInt64.add_comm 1, ← UInt64.add_assoc]
          rfl
  | receive n =>
      obtain ⟨queues, hreceive⟩ := s.receive_queues n
      rw [StreamOp.perform, hreceive]
      exact ⟨(UInt64.add_zero _).symm, (UInt64.add_zero _).symm⟩
  | _ => exact ⟨(UInt64.add_zero _).symm, (UInt64.add_zero _).symm⟩

/-! ### Histories -/

/-- What a history says of the queue of a receiver. -/
structure Accounted (n : Nat) (log : List StreamMoment) (q : EventQueue) : Prop where
  capacity_eq : (capacities log)[n]? = some q.capacity
  alive_iff : q.alive = true ↔ ¬ Dropped n log
  conserved : q.alive = true → received n log ++ q.events = accepted n log
  size_le : q.events.length ≤ q.capacity

/-- A stream is what its history says. -/
structure Conserved (log : List StreamMoment) (s : EventStream) : Prop where
  queue : ∀ n q, s.queues[n]? = some q → Accounted n log q
  /-- There are as many queues as were made. -/
  size_eq : s.queues.size = (capacities log).length
  untouched : ∀ n, s.queues[n]? = none →
    ¬ Dropped n log ∧ accepted n log = [] ∧ received n log = []
  enableCount_eq : s.enableCount + log.countP StreamMoment.stops = log.countP StreamMoment.starts
  consumer_eq : s.consumer = (log.filterMap StreamMoment.consumer?).getLast?.join
  emitted_eq : s.emitted = UInt64.ofNat (deliveries log).length
  total_eq : s.emitted + s.dropped = UInt64.ofNat (log.countP StreamMoment.offers)

theorem capacities_append (log : List StreamMoment) (x : StreamMoment) :
    capacities (log ++ [x]) = capacities log ++ x.op.capacity?.toList := by
  rw [capacities, List.filterMap_append]
  cases hop : x.op.capacity? <;> simp [capacities, hop]

theorem dropped_append : Dropped n (log ++ [x]) ↔ Dropped n log ∨ x.drops n := by
  simp [Dropped, or_and_right, exists_or]

theorem Accounted.perform {q q' : EventQueue} (h : Accounted n log q)
    (hthere : n < x.stream.queues.size) (hstep : QueueStep n x q q') :
    Accounted n (log ++ [x]) q' where
  capacity_eq := by
    have hlt := (List.getElem?_eq_some_iff.mp h.capacity_eq).1
    rw [capacities_append, List.getElem?_append_left hlt, hstep.capacity_eq]
    exact h.capacity_eq
  alive_iff := by
    have hdrops : x.drops n ↔ x.op = .drop n := and_iff_left hthere
    rw [hstep.alive_iff, h.alive_iff, dropped_append, hdrops, not_or]
  conserved halive := by
    have hbefore := h.conserved (hstep.alive_iff.mp halive).1
    rw [received_append, accepted_append, ← hbefore, List.append_assoc, List.append_assoc,
      received_singleton, hstep.conserved halive]
  size_le := hstep.capacity_eq ▸ hstep.size_le h.size_le

theorem conserved_empty : Conserved [] {} where
  queue n q hq := by simp at hq
  size_eq := rfl
  untouched n _ := ⟨by simp [Dropped], rfl, rfl⟩
  enableCount_eq := rfl
  consumer_eq := rfl
  emitted_eq := rfl
  total_eq := rfl

/-- A new queue: nothing was accepted for it or received from it, and nothing is in it. -/
theorem Accounted.new {q : EventQueue} (h : Conserved log x.stream)
    (hnone : x.stream.queues[n]? = none)
    (hq : (x.op.perform x.stream).queues[n]? = some q) : Accounted n (log ++ [x]) q := by
  obtain ⟨rfl, hcapacity, halive, hevents⟩ := queue_new hnone hq
  obtain ⟨hdropped, haccepted, hreceived⟩ := h.untouched _ hnone
  obtain ⟨hdrops, haccepted', hreceived'⟩ := untouched_of_none hnone
  constructor
  · rw [capacities_append, hcapacity, h.size_eq]
    exact List.getElem?_concat_length
  · rw [dropped_append]
    exact iff_of_true halive (not_or_intro hdropped hdrops)
  · intro _
    rw [received_append, received_singleton, accepted_append, hreceived, hreceived', hevents,
      haccepted, haccepted']
    rfl
  · rw [hevents]
    exact Nat.zero_le _

/-- **What one operation keeps.** -/
theorem Conserved.perform (h : Conserved log s) (op : StreamOp) :
    Conserved (log ++ [⟨s, op⟩]) (op.perform s) where
  queue n q' hq' := by
    cases hq : s.queues[n]? with
    | none => exact .new h hq hq'
    | some q =>
        obtain ⟨q₁, hq₁, hstep⟩ := queue_perform (x := ⟨s, op⟩) hq
        obtain rfl : q₁ = q' := Option.some.inj (hq₁.symm.trans hq')
        exact (h.queue n q hq).perform (Array.getElem?_eq_some_iff.mp hq).1 hstep
  size_eq := by
    rw [size_queues_perform, capacities_append, List.length_append, h.size_eq]
  untouched n hnone' := by
    cases hnone : s.queues[n]? with
    | some q =>
        -- queues do not go away
        obtain ⟨q', hq', -⟩ := queue_perform (x := ⟨s, op⟩) hnone
        exact absurd (hq'.symm.trans hnone') (Option.some_ne_none q')
    | none =>
        obtain ⟨hdropped, haccepted, hreceived⟩ := h.untouched n hnone
        obtain ⟨hdrops, haccepted', hreceived'⟩ := untouched_of_none (x := ⟨s, op⟩) hnone
        refine ⟨fun hd => (dropped_append.mp hd).elim hdropped hdrops, ?_, ?_⟩
        · rw [accepted_append, haccepted, haccepted', List.append_nil]
        · rw [received_append, received_singleton, hreceived, hreceived', List.append_nil]
  enableCount_eq := by
    have hstep := s.enableCount_perform op
    have hbefore := h.enableCount_eq
    rw [List.countP_append, List.countP_append]
    omega
  consumer_eq := by
    rw [consumer_perform, h.consumer_eq, List.filterMap_append]
    cases hop : StreamMoment.consumer? ⟨s, op⟩ <;> simp [hop]
  emitted_eq := by
    rw [(s.counters_perform op).1, h.emitted_eq, deliveries, deliveries, deliveries,
      List.filterMap_append, List.length_append, UInt64.ofNat_add]
  total_eq := by
    rw [(s.counters_perform op).2, h.total_eq, List.countP_append, UInt64.ofNat_add]

theorem Conserved.after (ops : List StreamOp) : ∀ {log : List StreamMoment} {s : EventStream},
    Conserved log s → Conserved (log ++ s.moments ops) (s.after ops) := by
  induction ops with
  | nil =>
      intro log s h
      rw [moments, List.append_nil]
      exact h
  | cons op ops ih =>
      intro log s h
      rw [moments, List.append_cons]
      exact ih (h.perform op)

/-- **Conservation.**  After every history of a stream:

* what was received from a receiver that was not dropped, and then what is in its queue, is what was
  accepted for it, in order, and the queue holds no more than the capacity it was made with;
* an event is accepted if and only if events flow, there is a consumer, its receiver was not dropped
  and its queue is not full;
* the counters count the events accepted for all receivers, and the events sent while events flowed;
* a stop that fails changes nothing.

Events flow if the stream was started more often than stopped, and the consumer is the last one
connected, unless it was let go. -/
theorem events_are_conserved (ops : List StreamOp) :
    let log := moments {} ops
    let s := EventStream.after {} ops
    (∀ n q, s.queues[n]? = some q → ¬ Dropped n log →
      received n log ++ q.events = accepted n log ∧
        q.events.length ≤ q.capacity ∧ (capacities log)[n]? = some q.capacity) ∧
    (∀ e, (s.emit e).emitted ≠ s.emitted ↔ s.enabled = true ∧ ∃ n q, s.consumer = some n ∧
      s.queues[n]? = some q ∧ ¬ Dropped n log ∧ q.events.length < q.capacity) ∧
    s.emitted = UInt64.ofNat (deliveries log).length ∧
    s.emitted + s.dropped = UInt64.ofNat (log.countP StreamMoment.offers) ∧
    (∀ t, s.stop.value = .error t → s.stop.state = s) ∧
    s.enableCount + log.countP StreamMoment.stops = log.countP StreamMoment.starts ∧
    s.consumer = (log.filterMap StreamMoment.consumer?).getLast?.join := by
  intro log s
  have h : Conserved log s := conserved_empty.after ops
  refine ⟨fun n q hq hdropped => ?_, fun e => ?_, h.emitted_eq, h.total_eq, fun t hfailed => ?_,
    h.enableCount_eq, h.consumer_eq⟩
  · have hqueue := h.queue n q hq
    exact ⟨hqueue.conserved (hqueue.alive_iff.mpr hdropped), hqueue.size_le, hqueue.capacity_eq⟩
  · rw [emitted_emit_ne_iff, accepts_iff]
    refine and_congr_right fun _ => exists_congr fun n => exists_congr fun q => ?_
    refine and_congr_right fun _ => and_congr_right fun hq => ?_
    rw [(h.queue n q hq).alive_iff, q.length_events]
  · unfold stop at hfailed ⊢
    split at hfailed
    · rfl
    · cases hfailed

end EventStream

end TracedMachine
