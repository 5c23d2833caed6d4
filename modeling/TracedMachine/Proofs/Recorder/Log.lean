import TracedMachine.Proofs.MethodId
import TracedMachine.Recorder
import Mathlib.Algebra.Group.Nat.Defs
import Mathlib.Logic.Basic

/-!
# Proofs — Recorder — Log

A recorder as an event log.  The log knows nothing of slots, of a full buffer or of packed words:
it is idle, or one trace is open in it, and then it holds every event since the start of that trace
(`EventLog`).  A recorder that has been asked the same as a log is determined by the log
(`EventLog.recorder`): its slots are the first events of the log, as many as it has room for, its
cursor has counted all of them, and its overflow counter the rest.

**Refinement** (`sessions_refine_log`).  Whatever has been asked of a recorder, it answers as the
log does (`Recorder.Refines`).  A trace begins only in an idle recorder, with a buffer for at least
one record and a target that opens; a refused request changes nothing; and ending a trace writes
the first events of the log, and no others, after a key that names each of their methods and the
two synthetic ones once (`OpenLog.Ends`).

One request is `RecorderOp.perform_recorder` and a history of them is `after_recorder`.  The cursor
and the overflow counter are never above the number of events (`EventLog.size_after`), so counters
of 64 bits hold them as long as there are fewer than `2 ^ 64` events.  No event in a slot is lost
when the slots are read again, since every slot was filled with the word of an action
(`OpenLog.records_session`).
-/

namespace TracedMachine

open Trace

/-- Something that is asked of a recorder, or the time changing. -/
inductive RecorderOp where
  | setClock (clock : UInt64)
  | start (target : Target) (bufferSize : Nat) (flags : TraceFlags)
  | add (thread : ThreadId) (method : MethodId) (action : Action)
  | passBegan (thread : ThreadId) (pass : Pass)
  | passEnded (thread : ThreadId) (pass : Pass)
  | stop (key : TraceKey)

/-- Does what is asked. -/
def RecorderOp.perform (r : Recorder) : RecorderOp → Recorder
  | setClock clock => { r with clock }
  | start target bufferSize flags => (r.start target bufferSize flags).state
  | add thread method action => r.add thread method action
  | passBegan thread pass => r.observe thread (.passBegan pass)
  | passEnded thread pass => r.observe thread (.passEnded pass)
  | stop key => (r.stop key).state

/-- The request is to record an event. -/
def RecorderOp.records : RecorderOp → Bool
  | add .. | passBegan .. | passEnded .. => true
  | _ => false

/-- The recorder after a history. -/
def Recorder.after (r : Recorder) (ops : List RecorderOp) : Recorder :=
  ops.foldl RecorderOp.perform r

/-- The sink of a target that opens. -/
def Target.sink? : Target → Option Sink
  | file _ (.ok _) => some {}
  | file _ (.error _) => none
  | writer sink => some sink

/-! ### The log -/

/-- An event, and the time of it. -/
structure LoggedEvent where
  thread : ThreadId
  method : MethodId
  action : Action
  time : UInt64

/-- A trace that is open, with all its events. -/
structure OpenLog where
  sink : Sink
  bufferSize : Nat
  flags : TraceFlags
  startTime : UInt64
  events : List LoggedEvent

/-- A log: idle, or with one open trace. -/
structure EventLog where
  opened : Option OpenLog := none
  clock : UInt64 := 0

/-- An open trace with one event more. -/
def OpenLog.append (l : OpenLog) (e : LoggedEvent) : OpenLog :=
  { l with events := l.events ++ [e] }

namespace EventLog

/-- Logs an event, if a trace is open. -/
def append (log : EventLog) (thread : ThreadId) (method : MethodId) (action : Action) : EventLog :=
  { log with opened := log.opened.map (·.append { thread, method, action, time := log.clock }) }

/-- Begins a trace, if none is open, the buffer has at least the 41 bytes of a head and a record,
and the target opens. -/
def start (log : EventLog) (target : Target) (bufferSize : Nat) (flags : TraceFlags) : EventLog :=
  match log.opened, target.sink? with
  | none, some sink =>
    if 41 ≤ bufferSize then
      { log with opened := some { sink, bufferSize, flags, startTime := log.clock, events := [] } }
    else log
  | _, _ => log

/-- Does what is asked. -/
def perform (log : EventLog) : RecorderOp → EventLog
  | .setClock clock => { log with clock }
  | .start target bufferSize flags => log.start target bufferSize flags
  | .add thread method action => log.append thread method action
  | .passBegan thread pass => log.append thread pass.method .enter
  | .passEnded thread pass => log.append thread pass.method .exit
  | .stop _ => { log with opened := none }

/-- The log after a history. -/
def after (log : EventLog) (ops : List RecorderOp) : EventLog := ops.foldl perform log

end EventLog

namespace OpenLog

/-- The number of events that are kept at most. -/
def capacity (l : OpenLog) : Nat := (l.bufferSize - 32) / 9

/-- The number of events that are kept. -/
def entries (l : OpenLog) : Nat := min l.events.length l.capacity

/-- The events that are kept. -/
def kept (l : OpenLog) : List LoggedEvent := l.events.take l.entries

/-- The microseconds from the start to an event, or the most that 32 bits can hold. -/
def elapsed (l : OpenLog) (e : LoggedEvent) : UInt32 :=
  (min (e.time.toNat - l.startTime.toNat) (2 ^ 32 - 1)).toUInt32

/-- The bytes of an event: the thread, the method's id with the action in place of its two low
bits, and the time. -/
def eventBytes (l : OpenLog) (e : LoggedEvent) : Bytes :=
  e.thread.raw ::
    littleEndian 4 (e.method.raw.toNat / 4 * 4 + e.action.bits.toNat) ++
      littleEndian 4 (l.elapsed e).toNat

/-- The slot of an event. -/
def slot (l : OpenLog) (e : LoggedEvent) : Slot :=
  { thread := e.thread, word := e.method.word e.action, elapsed := l.elapsed e }

/-- What a session holds once it has recorded the events of a log. -/
def session (l : OpenLog) : Session :=
  { sink := l.sink
    capacity := l.capacity
    slots := (l.kept.map l.slot).toArray
    cursor := l.events.length
    overflow := l.events.length - l.entries
    startTime := l.startTime
    flags := l.flags }

/-- **The end of a trace.**  What is written and said when a trace ends and its sink takes
everything; `ids` are the methods that the key names. -/
structure Ends (l : OpenLog) (key : TraceKey) (ids : List MethodId) (summary : TraceSummary)
    (sink : Sink) : Prop where
  /-- The key, the head and the kept events are written. -/
  held :
    sink.held = l.sink.held ++
      (Text.encode (keyText summary.overflow key.threads (ids.map key.entry)) ++
        Header.encode
          { version := 1, startTime := l.startTime, overflow := summary.overflow
            entries := summary.entries } ++
        l.kept.flatMap l.eventBytes)
  entries : summary.entries.toNat = min l.events.length l.capacity
  overflow : summary.overflow.toNat = min (l.events.length - l.entries) (2 ^ 32 - 1)
  capacity : summary.capacity = l.capacity
  flags : summary.flags = l.flags
  /-- The ids are those of the kept events, without their low bits, and the synthetic ones. -/
  mem_ids : ∀ id, id ∈ ids ↔
    (∃ e ∈ l.kept, id = .ofWord e.method.raw) ∨ id = .collection ∨ id = .classPreparation
  ascending : MethodId.Ascending ids
  /-- Where the key answers with the id that it was asked for, these are the ids written. -/
  named : (∀ id m, key.method? id = some m → m.id = id) → (ids.map key.entry).map (·.id) = ids
  fits : 32 + 9 * summary.entries.toNat ≤ l.bufferSize

end OpenLog

/-- The recorder that has been asked the same as a log. -/
def EventLog.recorder (log : EventLog) : Recorder :=
  { session := log.opened.map OpenLog.session, clock := log.clock }

/-- After a history with so many events, a recorder holds what a log holds, and answers as the log
does whatever it is asked next. -/
structure Recorder.Refines (r : Recorder) (log : EventLog) (recorded : Nat) : Prop where
  state : r = log.recorder
  /-- No counter is above the number of events. -/
  fits : ∀ s ∈ r.session, s.overflow ≤ s.cursor ∧ s.cursor ≤ recorded
  start_ok_iff : ∀ target bufferSize flags,
    (r.start target bufferSize flags).value = .ok () ↔
      log.opened = none ∧ 41 ≤ bufferSize ∧ target.sink?.isSome
  start_failed : ∀ target bufferSize flags, (r.start target bufferSize flags).value ≠ .ok () →
    (r.start target bufferSize flags).state = r
  add_idle : log.opened = none → ∀ thread method action, r.add thread method action = r
  stop_idle : log.opened = none → ∀ key,
    (r.stop key).state = r ∧ (r.stop key).value = { result := .error .notTracing, sink := none }
  stop_open : ∀ l, log.opened = some l → l.sink.room = none → l.sink.flushFault = none → ∀ key,
    ∃ ids summary sink, (r.stop key).state = { r with session := none } ∧
      (r.stop key).value = { result := .ok summary, sink := some sink } ∧
      l.Ends key ids summary sink

/-! ### The methods of a trace -/

theorem tracedIds_eq (records : List Record) :
    tracedIds records = (records.map (·.method)).foldl (fun ids m => m.insert ids)
      [.collection, .classPreparation] := by
  rw [tracedIds, List.foldl_map]

theorem ascending_tracedIds (records : List Record) : MethodId.Ascending (tracedIds records) := by
  have hsynthetic : MethodId.Ascending [.collection, .classPreparation] := by decide
  rw [tracedIds_eq]
  exact MethodId.ascending_foldl_insert hsynthetic _

theorem mem_tracedIds {records : List Record} {id : MethodId} :
    id ∈ tracedIds records ↔
      (∃ r ∈ records, id = r.method) ∨ id = .collection ∨ id = .classPreparation := by
  rw [tracedIds_eq, MethodId.mem_foldl_insert]
  simp [eq_comm]

theorem TraceKey.id_entry {key : TraceKey} (h : ∀ id m, key.method? id = some m → m.id = id)
    (id : MethodId) : (key.entry id).id = id := by
  unfold TraceKey.entry
  split
  · rfl
  · split
    · rfl
    · cases e : key.method? id with
      | none => rfl
      | some m => exact h id m e

/-! ### Sessions as logs -/

section

variable {s : Session} {now : UInt64} {thread : ThreadId} {method : MethodId} {action : Action}

theorem Session.record_of_lt (h : s.cursor < s.capacity) :
    s.record now thread method action =
      { s with
        cursor := s.cursor + 1
        slots := s.slots.push { thread, word := method.word action, elapsed := s.elapsed now } } :=
  if_pos h

theorem Session.record_of_le (h : s.capacity ≤ s.cursor) :
    s.record now thread method action =
      { s with cursor := s.cursor + 1, overflow := s.overflow + 1 } :=
  if_neg (Nat.not_lt.mpr h)

end

/-- A slot that was filled with the word of an action has a record. -/
theorem Slot.record?_word (thread : ThreadId) (method : MethodId) (action : Action)
    (elapsed : UInt32) :
    Slot.record? { thread, word := method.word action, elapsed } =
      some { thread, method := .ofWord method.raw, action, elapsed } := by
  rw [record?, Action.ofBits?_word, MethodId.ofWord_word]
  rfl

namespace OpenLog

theorem length_kept (l : OpenLog) : l.kept.length = l.entries := by
  rw [kept, List.length_take, entries]
  omega

/-- The record of an event. -/
def record (l : OpenLog) (e : LoggedEvent) : Record :=
  { thread := e.thread, method := .ofWord e.method.raw, action := e.action, elapsed := l.elapsed e }

theorem encode_record (l : OpenLog) (e : LoggedEvent) : (l.record e).encode = l.eventBytes e := by
  rw [eventBytes, ← MethodId.toNat_word, ← e.method.word_ofWord_raw]
  rfl

theorem record?_slot (l : OpenLog) (e : LoggedEvent) : (l.slot e).record? = some (l.record e) :=
  Slot.record?_word e.thread e.method e.action (l.elapsed e)

/-- Every kept event is read from its slot again. -/
theorem records_session (l : OpenLog) : l.session.records = l.kept.map l.record := by
  have hall : l.session.entries = (l.kept.map l.slot).length := by
    rw [List.length_map, length_kept]
    rfl
  rw [Session.records, hall, session, List.toList_toArray, List.take_length, List.filterMap_map,
    ← List.filterMap_eq_map]
  congr 1
  funext e
  exact l.record?_slot e

theorem kept_of_le {l : OpenLog} (h : l.events.length ≤ l.capacity) : l.kept = l.events := by
  rw [kept, entries, Nat.min_eq_left h, List.take_length]

theorem kept_append_of_le {l : OpenLog} (h : l.capacity ≤ l.events.length) (e : LoggedEvent) :
    (l.append e).kept = l.kept := by
  have hafter : (l.append e).entries = l.capacity :=
    Nat.min_eq_right (Nat.le_trans h (by simp [append]))
  rw [kept, kept, hafter, entries, Nat.min_eq_right h]
  exact List.take_append_of_le_length h

/-- A session that records an event holds one event more. -/
theorem record_session (l : OpenLog) (e : LoggedEvent) :
    l.session.record e.time e.thread e.method e.action = (l.append e).session := by
  have hlength : (l.append e).events.length = l.events.length + 1 := List.length_append
  by_cases hroom : l.events.length < l.capacity
  · -- the event gets a slot, and no event has been dropped yet
    have hkept : (l.append e).kept = l.kept ++ [e] := by
      rw [kept_of_le (Nat.le_of_lt hroom), kept_of_le (hlength ▸ hroom)]
      rfl
    have hdropped : (l.append e).events.length - (l.append e).entries =
        l.events.length - l.entries := by
      rw [← length_kept, ← length_kept, hkept, hlength, List.length_append, List.length_singleton]
      omega
    rw [Session.record_of_lt hroom, session, session, hkept, hdropped, hlength, List.map_append,
      List.map_singleton, ← List.push_toArray]
    rfl
  · -- the event is only counted
    have hfull := Nat.le_of_not_lt hroom
    have hkept := kept_append_of_le hfull e
    have hdropped : (l.append e).events.length - (l.append e).entries =
        l.events.length - l.entries + 1 := by
      rw [← length_kept, ← length_kept, hkept, hlength]
      have := l.length_kept
      simp only [entries] at this
      omega
    rw [Session.record_of_le hfull, session, session, hkept, hdropped, hlength]
    rfl

end OpenLog

/-! ### Histories -/

namespace Recorder

theorem refusal?_eq_none_iff {r : Recorder} {bufferSize : Nat} :
    r.refusal? bufferSize = none ↔ r.session = none ∧ 41 ≤ bufferSize := by
  have hcapacity : Session.capacityFor bufferSize = 0 ↔ bufferSize < 41 := by
    simp only [Session.capacityFor, headerSize, recordSize]
    omega
  cases hs : r.session with
  | none => simp [refusal?, enabled, hs, hcapacity]
  | some s => simp [refusal?, enabled, hs]

variable {r : Recorder} {target : Target} {bufferSize : Nat} {flags : TraceFlags}

theorem start_ok {sink : Sink} (hidle : r.session = none) (hsize : 41 ≤ bufferSize)
    (hsink : target.sink? = some sink) :
    (r.start target bufferSize flags).value = .ok () ∧
      (r.start target bufferSize flags).state = r.begin sink bufferSize flags := by
  have hr := refusal?_eq_none_iff.mpr ⟨hidle, hsize⟩
  cases target with
  | writer given =>
      cases hsink
      simp [start, hr]
  | file path opened =>
      cases opened with
      | error fault => cases hsink
      | ok _ =>
          cases hsink
          simp [start, hr]

theorem start_refused (h : ¬ (r.session = none ∧ 41 ≤ bufferSize ∧ target.sink?.isSome)) :
    (r.start target bufferSize flags).value ≠ .ok () ∧
      (r.start target bufferSize flags).state = r := by
  cases hr : r.refusal? bufferSize with
  | some e => simp [start, hr]
  | none =>
      obtain ⟨hidle, hsize⟩ := refusal?_eq_none_iff.mp hr
      cases target with
      | writer given => exact absurd ⟨hidle, hsize, rfl⟩ h
      | file path opened =>
          cases opened with
          | error fault => simp [start, hr]
          | ok _ => exact absurd ⟨hidle, hsize, rfl⟩ h

theorem start_ok_iff :
    (r.start target bufferSize flags).value = .ok () ↔
      r.session = none ∧ 41 ≤ bufferSize ∧ target.sink?.isSome := by
  constructor
  · intro hok
    exact Classical.not_not.mp fun h => (start_refused h).1 hok
  · rintro ⟨hidle, hsize, hopens⟩
    obtain ⟨sink, hsink⟩ := Option.isSome_iff_exists.mp hopens
    exact (start_ok hidle hsize hsink).1

theorem add_idle (hidle : r.session = none) (thread : ThreadId) (method : MethodId)
    (action : Action) : r.add thread method action = r := by
  rcases r with ⟨_ | s, clock⟩
  · rfl
  · cases hidle

theorem stop_idle (hidle : r.session = none) (key : TraceKey) :
    (r.stop key).state = r ∧
      (r.stop key).value = { result := .error .notTracing, sink := none } := by
  simp [stop, hidle]

/-- A trace ends, whatever comes of writing it. -/
theorem state_stop (r : Recorder) (key : TraceKey) :
    (r.stop key).state = { r with session := none } := by
  cases hs : r.session with
  | none =>
      rw [(stop_idle hs key).1, ← hs]
  | some s =>
      simp only [stop, hs]
      split <;> rfl

theorem value_stop {s : Session} {sink : Sink} {key : TraceKey} (hs : r.session = some s)
    (hwritten : s.sink.writeOut (s.file key).encode = (.ok (), sink)) :
    (r.stop key).value = { result := .ok s.summary, sink := some sink } := by
  simp only [stop, hs, hwritten]

end Recorder

namespace EventLog

theorem session_recorder {log : EventLog} : log.recorder.session = none ↔ log.opened = none :=
  Option.map_eq_none_iff

theorem add_recorder (log : EventLog) (thread : ThreadId) (method : MethodId) (action : Action) :
    log.recorder.add thread method action = (log.append thread method action).recorder := by
  rcases log with ⟨_ | l, clock⟩
  · rfl
  · exact congrArg (fun s => Recorder.mk (some s) clock)
      (l.record_session { thread, method, action, time := clock })

theorem start_recorder (log : EventLog) (target : Target) (bufferSize : Nat) (flags : TraceFlags) :
    (log.recorder.start target bufferSize flags).state =
      (log.start target bufferSize flags).recorder := by
  by_cases h : log.opened = none ∧ 41 ≤ bufferSize ∧ target.sink?.isSome
  · obtain ⟨hidle, hsize, hopens⟩ := h
    obtain ⟨sink, hsink⟩ := Option.isSome_iff_exists.mp hopens
    rw [(Recorder.start_ok (session_recorder.mpr hidle) hsize hsink).2]
    simp only [start, hidle, hsink, hsize, if_true]
    rfl
  · have hsame : log.start target bufferSize flags = log := by
      unfold start
      split
      next sink hidle hsink =>
        rw [if_neg fun hsize => h ⟨hidle, hsize, by rw [hsink]; rfl⟩]
      next => rfl
    rw [hsame, (Recorder.start_refused fun h' => h ⟨session_recorder.mp h'.1, h'.2⟩).2]

end EventLog

/-- One request does to the recorder what it does to the log. -/
theorem RecorderOp.perform_recorder (log : EventLog) (op : RecorderOp) :
    RecorderOp.perform log.recorder op = (log.perform op).recorder := by
  cases op with
  | setClock clock => rfl
  | start target bufferSize flags => exact log.start_recorder target bufferSize flags
  | add thread method action => exact log.add_recorder thread method action
  | passBegan thread pass => exact log.add_recorder thread pass.method .enter
  | passEnded thread pass => exact log.add_recorder thread pass.method .exit
  | stop key => exact log.recorder.state_stop key

/-- A history does to the recorder what it does to the log. -/
theorem EventLog.after_recorder (log : EventLog) (ops : List RecorderOp) :
    log.recorder.after ops = (log.after ops).recorder := by
  induction ops generalizing log with
  | nil => rfl
  | cons op ops ih =>
      have hstep := RecorderOp.perform_recorder log op
      calc log.recorder.after (op :: ops)
          = (RecorderOp.perform log.recorder op).after ops := rfl
        _ = (log.perform op).recorder.after ops := by rw [hstep]
        _ = ((log.perform op).after ops).recorder := ih (log.perform op)

/-! ### The number of events -/

namespace EventLog

/-- The number of events in a log. -/
def size (log : EventLog) : Nat := log.opened.elim 0 (·.events.length)

theorem size_append (log : EventLog) (thread : ThreadId) (method : MethodId) (action : Action) :
    (log.append thread method action).size ≤ log.size + 1 := by
  rcases log with ⟨_ | l, clock⟩
  · exact Nat.zero_le _
  · exact Nat.le_of_eq List.length_append

/-- A request adds one event at most. -/
theorem size_perform (log : EventLog) (op : RecorderOp) :
    (log.perform op).size ≤ log.size + if op.records then 1 else 0 := by
  cases op with
  | setClock clock => exact Nat.le_refl _
  | start target bufferSize flags =>
      show (log.start target bufferSize flags).size ≤ log.size
      unfold start
      split
      · split
        · exact Nat.zero_le _
        · exact Nat.le_refl _
      · exact Nat.le_refl _
  | add thread method action => exact log.size_append thread method action
  | passBegan thread pass => exact log.size_append thread pass.method .enter
  | passEnded thread pass => exact log.size_append thread pass.method .exit
  | stop key => exact Nat.zero_le _

/-- A log holds no more events than were recorded. -/
theorem size_after (log : EventLog) (ops : List RecorderOp) :
    (log.after ops).size ≤ log.size + ops.countP (·.records) := by
  induction ops generalizing log with
  | nil => exact Nat.le_refl _
  | cons op ops ih =>
      have hstep := log.size_perform op
      have hrest := ih (log.perform op)
      rw [List.countP_cons]
      show ((log.perform op).after ops).size ≤ _
      omega

/-- The counters of a session count events of the log. -/
theorem fits_recorder (log : EventLog) :
    ∀ s ∈ log.recorder.session, s.overflow ≤ s.cursor ∧ s.cursor = log.size := by
  intro s hs
  obtain ⟨l, hl, rfl⟩ := Option.map_eq_some_iff.mp hs
  refine ⟨Nat.sub_le _ _, ?_⟩
  rw [size, hl]
  rfl

end EventLog

/-! ### The end of a trace -/

/-- The buffer of an open trace has room for a record, and its records can be counted in 32 bits. -/
def OpenLog.Sized (l : OpenLog) : Prop := 41 ≤ l.bufferSize ∧ l.capacity < 2 ^ 32

/-- No more records are asked for than can be counted in 32 bits. -/
def RecorderOp.FitsCounter : RecorderOp → Prop
  | start _ bufferSize _ => Session.capacityFor bufferSize < 2 ^ 32
  | _ => True

theorem EventLog.sized_append {log : EventLog} (h : ∀ l ∈ log.opened, l.Sized) (thread : ThreadId)
    (method : MethodId) (action : Action) :
    ∀ l ∈ (log.append thread method action).opened, l.Sized := by
  intro l hl
  obtain ⟨l', hl', rfl⟩ := Option.map_eq_some_iff.mp hl
  exact h l' hl'

theorem EventLog.sized_perform {log : EventLog} (h : ∀ l ∈ log.opened, l.Sized) {op : RecorderOp}
    (hop : op.FitsCounter) : ∀ l ∈ (log.perform op).opened, l.Sized := by
  cases op with
  | setClock clock => exact h
  | start target bufferSize flags =>
      simp only [perform, start]
      split
      next sink hidle hsink =>
        split
        next hsize => rintro l ⟨⟩; exact ⟨hsize, hop⟩
        next => exact h
      next => exact h
  | add thread method action => exact sized_append h thread method action
  | passBegan thread pass => exact sized_append h thread pass.method .enter
  | passEnded thread pass => exact sized_append h thread pass.method .exit
  | stop key => exact fun l hl => nomatch hl

theorem EventLog.sized_after {log : EventLog} (h : ∀ l ∈ log.opened, l.Sized)
    {ops : List RecorderOp} (hops : ∀ op ∈ ops, op.FitsCounter) :
    ∀ l ∈ (log.after ops).opened, l.Sized := by
  induction ops generalizing log with
  | nil => exact h
  | cons op ops ih =>
      exact ih (sized_perform h (hops op List.mem_cons_self))
        fun op' hop' => hops op' (List.mem_cons_of_mem op hop')

theorem Sink.writeOut_lossless {s : Sink} (hroom : s.room = none) (hflush : s.flushFault = none)
    (bytes : Bytes) : s.writeOut bytes = (.ok (), { s with held := s.held ++ bytes }) := by
  simp [writeOut, write, flush, hroom, hflush]

namespace OpenLog

theorem encode_file (l : OpenLog) (key : TraceKey) :
    (l.session.file key).encode =
      Text.encode (keyText l.session.summary.overflow key.threads
          ((tracedIds l.session.records).map key.entry)) ++
        Header.encode
          { version := 1, startTime := l.startTime, overflow := l.session.summary.overflow
            entries := l.session.summary.entries } ++
        l.kept.flatMap l.eventBytes := by
  have hrecords : l.session.records.flatMap Record.encode = l.kept.flatMap l.eventBytes := by
    rw [records_session, List.flatMap_map]
    exact congrArg (l.kept.flatMap ·) (funext l.encode_record)
  rw [← hrecords]
  rfl

/-- A trace ends as it should, if its sink takes everything. -/
theorem ends_session (l : OpenLog) (hsized : l.Sized) (key : TraceKey) :
    l.Ends key (tracedIds l.session.records) l.session.summary
      { l.sink with held := l.sink.held ++ (l.session.file key).encode } := by
  have hentries : l.session.summary.entries.toNat = min l.events.length l.capacity := by
    have hlength : l.session.records.length = min l.events.length l.capacity := by
      rw [records_session, List.length_map, length_kept, entries]
    have hlt : min l.events.length l.capacity < 2 ^ 32 :=
      Nat.lt_of_le_of_lt (Nat.min_le_right _ _) hsized.2
    rw [Session.summary, hlength]
    exact Nat.mod_eq_of_lt hlt
  refine
    { held := by rw [l.encode_file key]
      entries := hentries
      overflow := Nat.mod_eq_of_lt (by omega)
      capacity := rfl
      flags := rfl
      mem_ids := fun id => ?_
      ascending := ascending_tracedIds _
      named := fun hkey => ?_
      fits := ?_ }
  · rw [mem_tracedIds, records_session]
    simp only [List.mem_map, exists_exists_and_eq_and]
    rfl
  · rw [List.map_map]
    exact List.map_id'' (TraceKey.id_entry hkey) _
  · have hsize := hsized.1
    rw [hentries, capacity]
    omega

end OpenLog

/-- **Refinement.**  After any history, a recorder holds what a log holds after the same history,
and answers as the log does. -/
theorem Recorder.sessions_refine_log (ops : List RecorderOp) (hops : ∀ op ∈ ops, op.FitsCounter) :
    (Recorder.after {} ops).Refines (EventLog.after {} ops) (ops.countP (·.records)) := by
  have hstate : Recorder.after {} ops = (EventLog.after {} ops).recorder :=
    EventLog.after_recorder {} ops
  have hidle : (EventLog.after {} ops).opened = none ↔ (Recorder.after {} ops).session = none := by
    rw [hstate, EventLog.session_recorder]
  refine
    { state := hstate
      fits := fun s hs => ?_
      start_ok_iff := fun target bufferSize flags => by rw [hidle, start_ok_iff]
      start_failed := fun target bufferSize flags h => ?_
      add_idle := fun h => add_idle (hidle.mp h)
      stop_idle := fun h => stop_idle (hidle.mp h)
      stop_open := fun l hl hroom hflush key => ?_ }
  · obtain ⟨hoverflow, hcursor⟩ := EventLog.fits_recorder _ s (hstate ▸ hs)
    have hsize : (EventLog.after {} ops).size ≤ 0 + ops.countP (·.records) :=
      EventLog.size_after {} ops
    rw [Nat.zero_add, ← hcursor] at hsize
    exact ⟨hoverflow, hsize⟩
  · exact (start_refused fun h' => h (start_ok_iff.mpr h')).2
  · have hsession : (Recorder.after {} ops).session = some l.session := by
      rw [hstate, EventLog.recorder, hl]
      rfl
    have hempty : ∀ l ∈ ({} : EventLog).opened, l.Sized := fun _ h => nomatch h
    have hsized : l.Sized := EventLog.sized_after hempty hops l hl
    have hwritten := Sink.writeOut_lossless hroom hflush (l.session.file key).encode
    exact ⟨_, _, _, state_stop _ key, value_stop hsession hwritten, l.ends_session hsized key⟩

/-- Three events, of which the buffer holds two, and a second start that is refused. -/
theorem Recorder.sessions_refine_log_full :
    let ops : List RecorderOp :=
      [.start (.writer {}) 50 .none, .add ⟨1⟩ ⟨7⟩ .enter, .start (.writer {}) 100 .none,
        .passBegan ⟨1⟩ .collection, .setClock 5, .add ⟨1⟩ ⟨7⟩ .unwind]
    (∀ op ∈ ops, op.FitsCounter) ∧ (Recorder.after {} ops).Refines (EventLog.after {} ops) 3 ∧
      (EventLog.after {} ops).opened.map (fun l => (l.events.length, l.entries)) = some (3, 2) := by
  intro ops
  have hops : ∀ op ∈ ops, op.FitsCounter := by
    simp [ops, RecorderOp.FitsCounter, Session.capacityFor, headerSize, recordSize]
  exact ⟨hops, sessions_refine_log ops hops, rfl⟩

end TracedMachine
