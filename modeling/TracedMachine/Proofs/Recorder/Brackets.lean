import TracedMachine.Proofs.Profiler.Gate

/-!
# Proofs — Recorder — Brackets

Traces as brackets.  A trace shows some events as a call that is entered or left (`Event.call?`).
Read from the start, a method that is entered is opened, and one that is left has to be the one
opened last of those that are still open (`openCalls`).

A session that records calls holds the first of them, as many as it has room for
(`Session.slots_recordAll`), with the low bits of the methods' ids lost.  Neither cutting a trace
off nor losing these bits takes brackets apart (`openCalls_take`, `openCalls_map`), so what is
recorded of a well bracketed trace never leaves a method that is not the innermost one
(`Session.Holds`).
-/

namespace TracedMachine

open Trace

/-! ### Open calls -/

/-- The calls that are open after an event, the innermost first.  Only the innermost can be left. -/
def MethodEvent.follow (opened : List MethodId) (e : MethodEvent) : Option (List MethodId) :=
  match e.action, opened with
  | .enter, opened => some (e.method :: opened)
  | .exit, id :: rest | .unwind, id :: rest => if id = e.method then some rest else none
  | .exit, [] | .unwind, [] => none

/-- The calls that are open after events, if only the innermost was ever left. -/
def openCalls (opened : List MethodId) (calls : List MethodEvent) : Option (List MethodId) :=
  calls.foldlM MethodEvent.follow opened

section

variable {opened opened' : List MethodId} {calls more : List MethodEvent}

theorem openCalls_append :
    openCalls opened (calls ++ more) = (openCalls opened calls).bind (openCalls · more) :=
  List.foldlM_append

theorem openCalls_cons (e : MethodEvent) :
    openCalls opened (e :: calls) = (e.follow opened).bind (openCalls · calls) :=
  List.foldlM_cons

/-- A trace that is cut off leaves some calls open, and is as good as before up to there. -/
theorem openCalls_take (h : openCalls opened calls = some opened') (n : Nat) :
    (openCalls opened (calls.take n)).isSome := by
  rw [← List.take_append_drop n calls, openCalls_append] at h
  obtain ⟨between, hbetween, -⟩ := Option.bind_eq_some_iff.mp h
  rw [hbetween]
  rfl

/-- An event that leaves a method leaves the innermost call. -/
theorem MethodEvent.follow_eq_some_iff {e : MethodEvent} :
    e.follow opened = some opened' ↔
      if e.action = .enter then opened' = e.method :: opened else opened = e.method :: opened' := by
  rcases e with ⟨method, action⟩
  cases action with
  | enter => simp [follow, eq_comm]
  | exit | unwind =>
      cases opened with
      | nil => simp [follow]
      | cons id rest => simp [follow]

/-- Calls that were open before stay open underneath. -/
theorem openCalls_under (h : openCalls opened calls = some opened') (below : List MethodId) :
    openCalls (opened ++ below) calls = some (opened' ++ below) := by
  induction calls generalizing opened with
  | nil =>
      cases h
      rfl
  | cons e calls ih =>
      rw [openCalls_cons] at h ⊢
      obtain ⟨between, hfirst, hrest⟩ := Option.bind_eq_some_iff.mp h
      refine Option.bind_eq_some_iff.mpr ⟨between ++ below, ?_, ih hrest⟩
      rw [MethodEvent.follow_eq_some_iff] at hfirst ⊢
      split <;> simp_all

/-- Renaming methods keeps brackets together. -/
theorem openCalls_map (h : openCalls opened calls = some opened') (f : MethodId → MethodId) :
    openCalls (opened.map f) (calls.map fun e => { e with method := f e.method }) =
      some (opened'.map f) := by
  induction calls generalizing opened with
  | nil =>
      cases h
      rfl
  | cons e calls ih =>
      rw [openCalls_cons] at h
      rw [List.map_cons, openCalls_cons]
      obtain ⟨between, hfirst, hrest⟩ := Option.bind_eq_some_iff.mp h
      refine Option.bind_eq_some_iff.mpr ⟨between.map f, ?_, ih hrest⟩
      rw [MethodEvent.follow_eq_some_iff] at hfirst ⊢
      split <;> simp_all

end

/-! ### Events as calls -/

/-- What a trace shows of an event. -/
def Event.call? : Event → Option MethodEvent
  | .method id action => some ⟨id, action⟩
  | .passBegan pass => some ⟨pass.method, .enter⟩
  | .passEnded pass => some ⟨pass.method, .exit⟩
  | .instruction _ | .alloc _ | .notice _ => none

/-- What a trace shows of events. -/
def tracedCalls (es : List Event) : List MethodEvent := es.filterMap Event.call?

@[simp] theorem tracedCalls_append (es more : List Event) :
    tracedCalls (es ++ more) = tracedCalls es ++ tracedCalls more :=
  List.filterMap_append

/-- Events lead from some open calls to others, and only the innermost is ever left. -/
def Bracketed (opened : List MethodId) (es : List Event) (opened' : List MethodId) : Prop :=
  openCalls opened (tracedCalls es) = some opened'

/-- Events that leave all open calls as they are. -/
def Balanced (es : List Event) : Prop := ∀ opened, Bracketed opened es opened

/-- Events that close the calls `own`, and the last of them is `last`. -/
def Closes (own : List MethodId) (es : List Event) (last : MethodEvent) : Prop :=
  ∃ inner, tracedCalls es = inner ++ [last] ∧ openCalls own inner = some []

namespace Bracketed

variable {opened between opened' : List MethodId} {es more : List Event}

theorem append (h : Bracketed opened es between) (hmore : Bracketed between more opened') :
    Bracketed opened (es ++ more) opened' := by
  rw [Bracketed, tracedCalls_append, openCalls_append]
  exact Option.bind_eq_some_iff.mpr ⟨between, h, hmore⟩

theorem closes {last : MethodEvent} (h : Bracketed opened es between)
    (hmore : Closes between more last) : Closes opened (es ++ more) last := by
  obtain ⟨inner, htraced, hinner⟩ := hmore
  refine ⟨tracedCalls es ++ inner, ?_, ?_⟩
  · rw [tracedCalls_append, htraced, List.append_assoc]
  · rw [openCalls_append]
    exact Option.bind_eq_some_iff.mpr ⟨between, h, hinner⟩

/-- The innermost method can be left, in one way or the other. -/
theorem leave (id : MethodId) {action : Action} (h : action ≠ .enter) (opened : List MethodId) :
    Bracketed (id :: opened) [.method id action] opened := by
  have hcall : tracedCalls [.method id action] = [⟨id, action⟩] := rfl
  rw [Bracketed, hcall, openCalls_cons]
  refine Option.bind_eq_some_iff.mpr ⟨opened, MethodEvent.follow_eq_some_iff.mpr ?_, rfl⟩
  rw [if_neg h]

end Bracketed

/-! ### Recorded calls -/

/-- What happened, according to a record. -/
def Trace.Record.call (r : Record) : MethodEvent := ⟨r.method, r.action⟩

/-- An event as it is recorded: without the low bits of the method's id. -/
def MethodEvent.masked (e : MethodEvent) : MethodEvent := { e with method := .ofWord e.method.raw }

namespace Session

/-- Records calls of a thread. -/
def recordAll (s : Session) (now : UInt64) (thread : ThreadId) (calls : List MethodEvent) :
    Session :=
  calls.foldl (fun s e => s.record now thread e.method e.action) s

/-- The slot of a call. -/
def slot (s : Session) (now : UInt64) (thread : ThreadId) (e : MethodEvent) : Slot :=
  { thread, word := e.method.word e.action, elapsed := s.elapsed now }

/-- A session that records calls fills the slots that it has left, and drops the other calls. -/
theorem slots_recordAll (s : Session) (now : UInt64) (thread : ThreadId)
    (calls : List MethodEvent) :
    (s.recordAll now thread calls).slots.toList =
      s.slots.toList ++ (calls.take (s.capacity - s.cursor)).map (s.slot now thread) := by
  induction calls generalizing s with
  | nil => simp [recordAll]
  | cons e calls ih =>
      have hnext := ih (s.record now thread e.method e.action)
      have hall : s.recordAll now thread (e :: calls) =
          (s.record now thread e.method e.action).recordAll now thread calls := rfl
      rw [hall, hnext]
      by_cases hroom : s.cursor < s.capacity
      · obtain ⟨left, hleft⟩ : ∃ left, s.capacity - s.cursor = left + 1 :=
          ⟨s.capacity - s.cursor - 1, by omega⟩
        have hleft' : s.capacity - (s.cursor + 1) = left := by omega
        rw [record_of_lt hroom, hleft, List.take_succ_cons, List.map_cons]
        simp only [hleft', Array.toList_push, List.append_assoc, List.singleton_append]
        rfl
      · have hfull := Nat.le_of_not_lt hroom
        have hleft : s.capacity - s.cursor = 0 := by omega
        have hleft' : s.capacity - (s.cursor + 1) = 0 := by omega
        rw [record_of_le hfull, hleft]
        simp only [hleft', List.take_zero, List.map_nil]

/-- The record of a call. -/
def recordOf (s : Session) (now : UInt64) (thread : ThreadId) (e : MethodEvent) : Record :=
  { thread, method := .ofWord e.method.raw, action := e.action, elapsed := s.elapsed now }

/-- **What a session holds of calls.**  `recorded` are the records that came in. -/
structure Holds (before after : Session) (thread : ThreadId) (calls : List MethodEvent)
    (recorded : List Record) : Prop where
  slots : after.slots.toList.filterMap Slot.record? =
    before.slots.toList.filterMap Slot.record? ++ recorded
  thread : ∀ r ∈ recorded, r.thread = thread
  /-- The first calls are recorded, as many as there is room for. -/
  first : recorded.map Record.call =
    (calls.take (before.capacity - before.cursor)).map MethodEvent.masked
  /-- No record leaves a method that is not the innermost one. -/
  innermost : (openCalls [] (recorded.map Record.call)).isSome

theorem holds_recordAll (s : Session) (now : UInt64) (thread : ThreadId)
    {calls : List MethodEvent} {opened : List MethodId} (h : openCalls [] calls = some opened) :
    ∃ recorded, s.Holds (s.recordAll now thread calls) thread calls recorded := by
  let kept := calls.take (s.capacity - s.cursor)
  have hcalls : (kept.map (s.recordOf now thread)).map Record.call = kept.map MethodEvent.masked :=
    List.map_map
  refine ⟨kept.map (s.recordOf now thread), ?_, ?_, hcalls, ?_⟩
  · rw [slots_recordAll, List.filterMap_append, List.filterMap_map]
    congr 1
    rw [← List.filterMap_eq_map]
    congr 1
    funext e
    exact Slot.record?_word thread e.method e.action (s.elapsed now)
  · intro r hr
    obtain ⟨e, -, rfl⟩ := List.mem_map.mp hr
    rfl
  · obtain ⟨cut, hcut⟩ := Option.isSome_iff_exists.mp
      (openCalls_take h (s.capacity - s.cursor))
    have hmasked := openCalls_map hcut fun id => .ofWord id.raw
    rw [hcalls]
    exact Option.isSome_of_eq_some hmasked

end Session

/-! ### Observers -/

/-- An open session records what a trace shows of an event. -/
theorem Recorder.observe_open {r : Recorder} {s : Session} (h : r.session = some s)
    (thread : ThreadId) (e : Event) :
    r.observe thread e =
      { r with session := some (s.recordAll r.clock thread (tracedCalls [e])) } := by
  rcases r with ⟨session, clock⟩
  cases h
  cases e <;> rfl

/-- An active profiler with an open session records what a trace shows of events. -/
theorem Profiler.session_observe {p : Profiler} {s : Session} (hactive : p.isActive)
    (h : p.recorder.session = some s) (thread : ThreadId) (es : List Event) :
    (es.foldl (fun p e => p.observe thread e) p).recorder.session =
      some (s.recordAll p.recorder.clock thread (tracedCalls es)) := by
  induction es generalizing p s with
  | nil => exact h
  | cons e es ih =>
      have hopen : p.observe thread e = p.hear thread e := by
        simp only [observe, hactive, Bool.not_true, Bool.and_false, Bool.false_eq_true, if_false]
      obtain ⟨hkept, -, hrecorder, -⟩ := p.hear_keeps thread e
      have hrecorder := hrecorder.trans (Recorder.observe_open h thread e)
      have hactive' : (p.hear thread e).isActive := by rwa [isActive, hkept]
      have hrest := ih hactive' (congrArg Recorder.session hrecorder)
      have hclock : (p.hear thread e).recorder.clock = p.recorder.clock := by rw [hrecorder]
      rw [List.foldl_cons, hopen, hrest, hclock]
      have hall : tracedCalls (e :: es) = tracedCalls [e] ++ tracedCalls es :=
        tracedCalls_append [e] es
      rw [hall, Session.recordAll, Session.recordAll, Session.recordAll, List.foldl_append]

end TracedMachine
