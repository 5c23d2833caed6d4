import TracedMachine.Proofs.Recorder.Brackets

/-!
# Proofs — Profiler — Mirror

Two consumers of method events.  A trace packs events into a buffer of a fixed number of slots and
shows the passes of the machine as calls among them; the stream to an emulator puts method events
into a queue of another size and knows nothing of passes.  Each drops what it has no room for.

**Agreement** (`Profiler.consumers_agree`).  If a trace and a consumer of the stream begin together
(`Profiler.BothBegin`), what is in the queue and what the trace writes, without its passes, tell one
history: one of the two is the beginning of the other, and they are equal if nothing was dropped.

Both hold a beginning of the method events (`Profiler.Mirrors`).  For the queue that is what one
event does to it (`EventStream.queue_emit`); for the trace it is that the passes can be told from
the methods by their ids, also without the low bits (`filter_tracedCalls`).
-/

namespace TracedMachine

open Trace

/-! ### Method events and passes -/

/-- The id of a pass. -/
def MethodId.isSynthetic (id : MethodId) : Bool := id = .collection || id = .classPreparation

/-- The method event among the events of a machine. -/
def Event.method? : Event → Option MethodEvent
  | method id action => some ⟨id, action⟩
  | _ => none

/-- The method events among the events of a machine. -/
def methodEvents (es : List Event) : List MethodEvent := es.filterMap Event.method?

/-- The event shows a pass, once the low bits of its id are gone. -/
def MethodEvent.isPass (e : MethodEvent) : Bool := e.masked.method.isSynthetic

theorem methodEvents_append (es more : List Event) :
    methodEvents (es ++ more) = methodEvents es ++ methodEvents more :=
  List.filterMap_append

theorem Pass.isPass_method (pass : Pass) (action : Action) :
    MethodEvent.isPass ⟨pass.method, action⟩ = true := by
  cases pass with
  | collection => exact (by decide : (MethodId.ofWord 0xfffffff0).isSynthetic = true)
  | classPreparation => exact (by decide : (MethodId.ofWord 0xfffffff4).isSynthetic = true)

/-- Without its passes, a trace shows the method events. -/
theorem filter_tracedCalls {es : List Event} (h : ∀ e ∈ methodEvents es, e.isPass = false) :
    (tracedCalls es).filter (fun e => !e.isPass) = methodEvents es := by
  induction es with
  | nil => rfl
  | cons e es ih =>
      have hcalls : tracedCalls (e :: es) = tracedCalls [e] ++ tracedCalls es :=
        tracedCalls_append [e] es
      have hmethods : methodEvents (e :: es) = methodEvents [e] ++ methodEvents es :=
        methodEvents_append [e] es
      rw [hmethods] at h
      rw [hcalls, hmethods, List.filter_append, ih fun x hx => h x (List.mem_append_right _ hx)]
      congr 1
      cases e with
      | method id action =>
          have hplain := h ⟨id, action⟩ List.mem_cons_self
          exact List.filter_cons_of_pos (by rw [hplain]; rfl)
      | passBegan pass => exact List.filter_cons_of_neg (by rw [pass.isPass_method]; decide)
      | passEnded pass => exact List.filter_cons_of_neg (by rw [pass.isPass_method]; decide)
      | instruction | alloc | notice => rfl

/-! ### The trace -/

/-- What happened, according to a log. -/
def LoggedEvent.call (e : LoggedEvent) : MethodEvent := ⟨e.method, e.action⟩

/-- What a file tells of methods. -/
def TraceFile.plainCalls (f : TraceFile) : List MethodEvent :=
  (f.records.map Record.call).filter fun e => !e.method.isSynthetic

namespace OpenLog

/-- An open trace with the calls of a thread. -/
def appendCalls (l : OpenLog) (now : UInt64) (thread : ThreadId) (calls : List MethodEvent) :
    OpenLog :=
  { l with events := l.events ++ calls.map fun e => ⟨thread, e.method, e.action, now⟩ }

/-- A session that records calls holds so many events more. -/
theorem recordAll_session (l : OpenLog) (now : UInt64) (thread : ThreadId)
    (calls : List MethodEvent) :
    l.session.recordAll now thread calls = (l.appendCalls now thread calls).session := by
  induction calls generalizing l with
  | nil =>
      rw [appendCalls, List.map_nil, List.append_nil]
      rfl
  | cons e calls ih =>
      have hfirst := l.record_session ⟨thread, e.method, e.action, now⟩
      have hrest := ih (l.append ⟨thread, e.method, e.action, now⟩)
      rw [← hfirst] at hrest
      refine Eq.trans hrest ?_
      rw [appendCalls, append, List.append_assoc]
      rfl

/-- A trace shows the first events of its log. -/
theorem call_records (l : OpenLog) :
    l.session.records.map Record.call =
      ((l.events.map LoggedEvent.call).take l.capacity).map MethodEvent.masked := by
  have hkept : l.kept = l.events.take l.capacity := by
    rw [kept, entries, Nat.min_comm, ← List.take_eq_take_min]
  rw [records_session, hkept, List.map_map, ← List.map_take, List.map_map]
  rfl

/-- Every event of a log is in the trace or was dropped. -/
theorem length_records (l : OpenLog) :
    l.session.records.length + l.session.overflow = l.events.length := by
  have hle : l.entries ≤ l.events.length := Nat.min_le_left _ _
  rw [records_session, List.length_map, length_kept]
  show l.entries + (l.events.length - l.entries) = l.events.length
  omega

end OpenLog

/-- A session that has recorded nothing is that of an empty log. -/
theorem Session.exists_log {s : Session} (h : s.slots = #[] ∧ s.cursor = 0 ∧ s.overflow = 0) :
    ∃ l : OpenLog, l.session = s ∧ l.events = [] := by
  rcases s with ⟨sink, capacity, slots, cursor, overflow, startTime, flags⟩
  obtain ⟨rfl, rfl, rfl⟩ := h
  refine ⟨⟨sink, 32 + 9 * capacity, flags, startTime, []⟩, ?_, rfl⟩
  have hcapacity : (32 + 9 * capacity - 32) / 9 = capacity := by omega
  simp only [OpenLog.session, OpenLog.kept, OpenLog.entries, OpenLog.capacity, hcapacity]
  simp

/-- A recorder has an open trace, with so much room, of all that a trace shows of events. -/
def Recorder.Shows (r : Recorder) (capacity : Nat) (sink : Sink) (es : List Event) : Prop :=
  ∃ l : OpenLog, r.session = some l.session ∧ l.capacity = capacity ∧ l.sink = sink ∧
    l.events.map LoggedEvent.call = tracedCalls es

theorem Recorder.Shows.observe {r : Recorder} {capacity : Nat} {sink : Sink} {es : List Event}
    (h : r.Shows capacity sink es) (thread : ThreadId) (e : Event) :
    (r.observe thread e).Shows capacity sink (es ++ [e]) := by
  obtain ⟨l, hopen, hcapacity, hsink, hcalls⟩ := h
  refine ⟨l.appendCalls r.clock thread (tracedCalls [e]), ?_, hcapacity, hsink, ?_⟩
  · rw [observe_open hopen, l.recordAll_session]
  · have hadded : (tracedCalls [e]).map (fun e => (⟨e.method, e.action⟩ : MethodEvent)) =
        tracedCalls [e] := List.map_id'' (fun _ => rfl) _
    rw [OpenLog.appendCalls, List.map_append, hcalls, List.map_map, tracedCalls_append]
    exact congrArg (tracedCalls es ++ ·) hadded

/-- A file tells the beginning of the method events, and all of them if nothing was dropped. -/
theorem OpenLog.plainCalls_file {l : OpenLog} {es : List Event}
    (hcalls : l.events.map LoggedEvent.call = tracedCalls es)
    (hplain : ∀ e ∈ methodEvents es, e.isPass = false) (key : TraceKey) :
    (l.session.file key).plainCalls <+: (methodEvents es).map MethodEvent.masked ∧
      (l.session.overflow = 0 →
        (l.session.file key).plainCalls = (methodEvents es).map MethodEvent.masked) := by
  have htold : (l.session.file key).plainCalls =
      (((tracedCalls es).take l.capacity).filter fun e => !e.isPass).map MethodEvent.masked := by
    show (l.session.records.map Record.call).filter _ = _
    rw [call_records, hcalls, List.filter_map]
    rfl
  rw [htold, ← filter_tracedCalls hplain]
  refine ⟨((List.take_prefix _ _).filter _).map _, fun hnone => ?_⟩
  have hroom : (tracedCalls es).length ≤ l.capacity := by
    have hdropped : l.events.length - min l.events.length l.capacity = 0 := hnone
    rw [← hcalls, List.length_map]
    omega
  rw [List.take_of_length_le hroom]

/-! ### The queue of a consumer -/

/-- **One event for a consumer** whose receiver is there: it goes into the queue, or it is dropped
because the queue is full. -/
theorem EventStream.queue_emit {s : EventStream} {n : Nat} {q : EventQueue} (e : MethodEvent)
    (hflows : s.enabled = true) (hconsumer : s.consumer = some n) (hq : s.queues[n]? = some q)
    (halive : q.alive = true) :
    (q.size < q.capacity ∧ (s.emit e).queues[n]? = some (q.push e) ∧
        (s.emit e).dropped = s.dropped) ∨
      (q.capacity ≤ q.size ∧ (s.emit e).queues[n]? = some q ∧
        (s.emit e).dropped = s.dropped + 1) := by
  have hsends := s.emit_sends e
  generalize s.emit e = s', StreamMoment.delivery? ⟨s, .emit e⟩ = delivery at hsends
  cases hsends with
  | off disabled =>
      rw [hflows] at disabled
      cases disabled
  | dropped _ refuses =>
      refine .inr ⟨Nat.le_of_not_lt fun hroom => ?_, hq, rfl⟩
      have haccepts := accepts_iff.mpr ⟨n, q, hconsumer, hq, halive, hroom⟩
      rw [refuses] at haccepts
      cases haccepts
  | @accepted k p _ _ current queue room =>
      obtain rfl : k = n := Option.some.inj (current.symm.trans hconsumer)
      obtain rfl : p = q := Option.some.inj (queue.symm.trans hq)
      refine .inl ⟨room, ?_, rfl⟩
      show (s.queues.modify k (·.push e))[k]? = some (p.push e)
      rw [getElem?_modify_some hq, if_pos rfl]

/-- A stream has put events into a consumer's queue of some capacity, as many as it has room for,
and dropped the others. -/
structure EventStream.Feeds (s : EventStream) (n capacity : Nat) (dropped : UInt64)
    (es : List MethodEvent) : Prop where
  flows : s.enabled = true
  consumer : s.consumer = some n
  queue : ∃ q, s.queues[n]? = some q ∧ q.alive = true ∧ q.capacity = capacity ∧
    q.events = es.take capacity
  dropped : s.dropped = dropped + (es.length - capacity).toUInt64

theorem EventStream.Feeds.emit {s : EventStream} {n capacity : Nat} {dropped : UInt64}
    {es : List MethodEvent} (h : s.Feeds n capacity dropped es) (e : MethodEvent) :
    (s.emit e).Feeds n capacity dropped (es ++ [e]) := by
  obtain ⟨hflows, hconsumer, ⟨q, hq, halive, rfl, hevents⟩, hdropped⟩ := h
  obtain ⟨hcount, hkept⟩ := s.emit_kept e
  have hsize : q.size = min q.capacity es.length := by
    rw [← q.length_events, hevents, List.length_take]
  have hflows' : (s.emit e).enabled = true := by rwa [enabled, hcount]
  obtain ⟨hroom, hq', hdropped'⟩ | ⟨hfull, hq', hdropped'⟩ :=
    s.queue_emit e hflows hconsumer hq halive
  · -- the queue has taken every event so far, and takes this one
    have hlength : es.length + 1 ≤ q.capacity := by omega
    have hlength' : (es ++ [e]).length ≤ q.capacity := by
      rw [List.length_append, List.length_singleton]
      exact hlength
    refine ⟨hflows', hkept.trans hconsumer, ⟨q.push e, hq', halive, rfl, ?_⟩, ?_⟩
    · rw [EventQueue.events_push, hevents, List.take_of_length_le (Nat.le_of_succ_le hlength),
        List.take_of_length_le hlength']
    · rw [hdropped', hdropped, Nat.sub_eq_zero_of_le hlength',
        Nat.sub_eq_zero_of_le (Nat.le_of_succ_le hlength)]
  · have hlength : q.capacity ≤ es.length := by omega
    refine ⟨hflows', hkept.trans hconsumer, ⟨q, hq', halive, rfl, ?_⟩, ?_⟩
    · rw [hevents, List.take_append_of_le_length hlength]
    · have hmore : (es ++ [e]).length - q.capacity = es.length - q.capacity + 1 := by
        rw [List.length_append, List.length_singleton]
        omega
      have hone : (es.length - q.capacity + 1).toUInt64 =
          (es.length - q.capacity).toUInt64 + 1 := UInt64.ofNat_add _ 1
      rw [hdropped', hdropped, hmore, hone, UInt64.add_assoc]

/-! ### Histories -/

namespace ProfilerOp

/-- The event that a profiler is told. -/
def event? : ProfilerOp → Option Event
  | event _ e => some e
  | _ => none

/-- The request ends no trace, and leaves the stream to its consumer. -/
def leavesConsumers : ProfilerOp → Bool
  | stopTracing _ | stopEmulator | connectEmulator _ | disconnectEmulator | shutdown _ => false
  | _ => true

/-- While a trace is open, requests that leave its consumers change nothing that these have. -/
theorem perform_quiet {p : Profiler} {op : ProfilerOp} {s : Session}
    (hopen : p.recorder.session = some s) (hleaves : op.leavesConsumers = true)
    (hquiet : op.event? = none) :
    (op.perform p).recorder.session = some s ∧
      ∃ starts, (op.perform p).emulator =
        { p.emulator with enableCount := p.emulator.enableCount + starts } := by
  cases op with
  | setClock clock | startInstructions | startAlloc | stopAlloc => exact ⟨hopen, 0, rfl⟩
  | startEmulator => exact ⟨hopen, 1, rfl⟩
  | startTracing target bufferSize flags =>
      show (p.startTracing target bufferSize flags).state.recorder.session = some s ∧ ∃ starts,
        (p.startTracing target bufferSize flags).state.emulator = _
      obtain hsame | ⟨hidle, -⟩ := p.startTracing_cases target bufferSize flags
      · rw [hsame]
        exact ⟨hopen, 0, rfl⟩
      · rw [hidle] at hopen
        cases hopen
  | stopInstructions =>
      obtain hsame | ⟨n, -, hstopped⟩ := p.stopInstructions_cases
      · rw [hsame]
        exact ⟨hopen, 0, rfl⟩
      · rw [hstopped]
        exact ⟨hopen, 0, rfl⟩
  | event thread e => cases hquiet
  | stopTracing key | stopEmulator | connectEmulator capacity | disconnectEmulator | shutdown key =>
      cases hleaves

end ProfilerOp

namespace Profiler

/-- A trace and a consumer of the stream begin together. -/
structure BothBegin (p : Profiler) (s : Session) (n : Nat) (q : EventQueue) : Prop where
  traced : p.recorder.session = some s
  unused : s.slots = #[] ∧ s.cursor = 0 ∧ s.overflow = 0
  flows : p.emulator.enabled = true
  consumer : p.emulator.consumer = some n
  queue : p.emulator.queues[n]? = some q
  alive : q.alive = true
  empty : q.events = []

/-- A trace and a queue that began together have been told the same events. -/
structure Mirrors (p : Profiler) (s : Session) (n : Nat) (q : EventQueue) (dropped : UInt64)
    (es : List Event) : Prop where
  accounted : p.Accounted
  shows : p.recorder.Shows s.capacity s.sink es
  feeds : p.emulator.Feeds n q.capacity dropped (methodEvents es)

section

variable {p : Profiler} {s : Session} {n : Nat} {q : EventQueue} {dropped : UInt64}
  {es : List Event}

theorem BothBegin.mirrors (h : p.BothBegin s n q) (haccounted : p.Accounted) :
    p.Mirrors s n q p.emulator.dropped [] where
  accounted := haccounted
  shows := by
    obtain ⟨l, hl, hevents⟩ := Session.exists_log h.unused
    refine ⟨l, h.traced.trans (congrArg some hl.symm), ?_, ?_, ?_⟩
    · rw [← hl]
      rfl
    · rw [← hl]
      rfl
    · rw [hevents]
      rfl
  feeds := by
    refine ⟨h.flows, h.consumer, ⟨q, h.queue, h.alive, rfl, ?_⟩, ?_⟩
    · rw [h.empty]
      exact List.take_nil.symm
    · have hnone : (methodEvents []).length - q.capacity = 0 := Nat.zero_sub _
      rw [hnone]
      exact (UInt64.add_zero _).symm

/-- One request. -/
theorem Mirrors.perform (h : p.Mirrors s n q dropped es) {op : ProfilerOp}
    (hleaves : op.leavesConsumers = true) :
    (op.perform p).Mirrors s n q dropped (es ++ op.event?.toList) := by
  have haccounted := h.accounted.perform op
  cases hevent : op.event? with
  | some e =>
      obtain ⟨thread, rfl⟩ : ∃ thread, op = .event thread e := by
        cases op <;> cases hevent
        exact ⟨_, rfl⟩
      have hheard : ProfilerOp.perform p (.event thread e) = p.hear thread e :=
        h.accounted.observe thread e
      rw [hheard] at haccounted ⊢
      refine ⟨haccounted, ?_, ?_⟩
      · rw [(p.hear_keeps thread e).2.2.1]
        exact h.shows.observe thread e
      · rw [Option.toList_some, methodEvents_append]
        cases e with
        | method id action => exact h.feeds.emit ⟨id, action⟩
        | passBegan | passEnded | instruction | alloc | notice =>
            exact (List.append_nil (methodEvents es)).symm ▸ h.feeds
  | none =>
      obtain ⟨l, hopen, hshown⟩ := h.shows
      obtain ⟨hkept, starts, hstream⟩ := ProfilerOp.perform_quiet hopen hleaves hevent
      rw [Option.toList_none, List.append_nil]
      refine ⟨haccounted, ⟨l, hkept, hshown⟩, ?_⟩
      obtain ⟨hflows, hconsumer, hqueue, hdropped⟩ := h.feeds
      rw [hstream]
      refine ⟨?_, hconsumer, hqueue, hdropped⟩
      simp only [EventStream.enabled, ne_eq, decide_eq_true_eq] at hflows ⊢
      omega

/-- A history. -/
theorem Mirrors.after (h : p.Mirrors s n q dropped es) {ops : List ProfilerOp}
    (hleaves : ∀ op ∈ ops, op.leavesConsumers = true) :
    (p.after ops).Mirrors s n q dropped (es ++ ops.filterMap ProfilerOp.event?) := by
  induction ops generalizing p es with
  | nil =>
      rw [List.filterMap_nil, List.append_nil]
      exact h
  | cons op ops ih =>
      have hfirst := h.perform (hleaves op List.mem_cons_self)
      have hrest := ih hfirst fun op' hop' => hleaves op' (List.mem_cons_of_mem op hop')
      rw [List.append_assoc] at hrest
      have hall : (op :: ops).filterMap ProfilerOp.event? =
          op.event?.toList ++ ops.filterMap ProfilerOp.event? := by
        rw [List.filterMap_cons]
        cases op.event? <;> rfl
      rw [hall]
      exact hrest

end

/-- **Agreement.**  A trace and a consumer of the stream that began together tell one history,
whatever room the two have: what is in the consumer's queue and what the trace writes of methods
begin alike, and are equal if nothing was dropped. -/
theorem consumers_agree (settings : ProfilerSettings) (before ops : List ProfilerOp) {s : Session}
    {n : Nat} {q : EventQueue} (hbegin : ((new settings).after before).BothBegin s n q)
    (hleaves : ∀ op ∈ ops, op.leavesConsumers = true)
    (hplain : ∀ e ∈ methodEvents (ops.filterMap ProfilerOp.event?), e.isPass = false) :
    let p := (new settings).after before
    let p' := p.after ops
    let es := ops.filterMap ProfilerOp.event?
    ∃ s' q' lost, p'.recorder.session = some s' ∧ p'.emulator.queues[n]? = some q' ∧
      -- every event is there or was dropped
      s'.records.length + s'.overflow = (tracedCalls es).length ∧
      q'.size + lost = (methodEvents es).length ∧
      p'.emulator.dropped = p.emulator.dropped + lost.toUInt64 ∧
      ∀ key,
        let written := (s'.file key).plainCalls
        let queued := q'.events.map MethodEvent.masked
        (queued <+: written ∨ written <+: queued) ∧
        (s'.overflow = 0 → lost = 0 → queued = written) ∧
        -- the file is what a stop writes
        (s'.sink.room = none → s'.sink.flushFault = none →
          (p'.stopTracing key).value =
            { result := .ok s'.summary
              sink := some { s'.sink with held := s'.sink.held ++ (s'.file key).encode } }) := by
  intro p p' es
  have hmirrors : p'.Mirrors s n q p.emulator.dropped es :=
    (hbegin.mirrors ((accounted_new settings).after before)).after hleaves
  obtain ⟨l, hopen, -, -, hcalls⟩ := hmirrors.shows
  obtain ⟨-, -, ⟨q', hq', -, -, hevents⟩, hdropped⟩ := hmirrors.feeds
  have hcounted := l.length_records
  rw [← List.length_map LoggedEvent.call, hcalls] at hcounted
  refine ⟨l.session, q', _, hopen, hq', hcounted, ?_, hdropped, fun key => ?_⟩
  · rw [← q'.length_events, hevents, List.length_take]
    omega
  · obtain ⟨hbeginning, hwhole⟩ := OpenLog.plainCalls_file hcalls hplain key
    have hqueued : q'.events.map MethodEvent.masked <+:
        (methodEvents es).map MethodEvent.masked := by
      rw [hevents]
      exact (List.take_prefix _ _).map _
    refine ⟨List.prefix_or_prefix_of_prefix hqueued hbeginning, fun hnone hlost => ?_,
      fun hroom hflush => ?_⟩
    · rw [hwhole hnone, hevents, List.take_of_length_le (Nat.le_of_sub_eq_zero hlost)]
    · rw [value_stopTracing]
      exact Recorder.value_stop hopen (Sink.writeOut_lossless hroom hflush _)

/-- A collection after the first of three calls.  Both consumers have room for two events: the queue
has two calls, and the trace a call and the begin of the collection. -/
theorem consumers_agree_collecting :
    let before : List ProfilerOp :=
      [.startTracing (.writer {}) 50 .none, .startEmulator, .connectEmulator 2]
    let ops : List ProfilerOp :=
      [.event ⟨1⟩ (.method ⟨5⟩ .enter), .event ⟨1⟩ (.passBegan .collection),
        .event ⟨1⟩ (.passEnded .collection), .event ⟨2⟩ (.method ⟨8⟩ .enter),
        .event ⟨2⟩ (.method ⟨8⟩ .exit)]
    let p := (new {}).after before
    (∃ s q, p.BothBegin s 0 q) ∧ (∀ op ∈ ops, op.leavesConsumers = true) ∧
      (∀ e ∈ methodEvents (ops.filterMap ProfilerOp.event?), e.isPass = false) ∧
      (p.after ops).recorder.session.map (·.records.map Record.call) =
        some [⟨⟨4⟩, .enter⟩, ⟨.collection, .enter⟩] ∧
      (p.after ops).emulator.queues[0]?.map (·.events) =
        some [⟨⟨5⟩, .enter⟩, ⟨⟨8⟩, .enter⟩] ∧
      ∃ s' q', (p.after ops).recorder.session = some s' ∧
        (p.after ops).emulator.queues[0]? = some q' ∧ ∀ key,
          q'.events.map MethodEvent.masked <+: (s'.file key).plainCalls ∨
            (s'.file key).plainCalls <+: q'.events.map MethodEvent.masked := by
  intro before ops p
  have hbegin : p.BothBegin
      { sink := {}, capacity := 2, startTime := 0, flags := .none } 0 { capacity := 2 } :=
    ⟨rfl, ⟨rfl, rfl, rfl⟩, rfl, rfl, rfl, rfl, rfl⟩
  have hleaves : ∀ op ∈ ops, op.leavesConsumers = true := by simp [ops, ProfilerOp.leavesConsumers]
  have hplain : ∀ e ∈ methodEvents (ops.filterMap ProfilerOp.event?), e.isPass = false := by decide
  obtain ⟨s', q', _, hs', hq', -, -, -, hagree⟩ :=
    consumers_agree {} before ops hbegin hleaves hplain
  exact ⟨⟨_, _, hbegin⟩, hleaves, hplain, by decide, by decide, s', q', hs', hq',
    fun key => (hagree key).1⟩

end Profiler

end TracedMachine
