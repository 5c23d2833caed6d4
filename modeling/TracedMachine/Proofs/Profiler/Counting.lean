import TracedMachine.Proofs.AllocCounters
import TracedMachine.Proofs.Profiler.Gate

/-!
# Proofs — Profiler — Counting

The allocation counters of a profiler have two masters.  The host starts and stops them, and so does
a trace that was asked to count allocations; a start sets them to zero whoever makes it, and a stop
is not matched with the start that it belongs to.

All that a history does to the counters is a list of calls to them (`ProfilerOp.counterCall?`,
`Profiler.Accounted.alloc_perform`).

**Counting beside traces** (`Profiler.counting_undisturbed_iff`).  From a start by the host until
the host starts or stops them again, or the profiler is shut down, the counters are on and have
counted all that was reported if and only if no trace disturbs them: none that counts allocations
ends, and each that begins does so before anything was counted.  A trace can lose the host its
counts (`Profiler.trace_takes_counts`).
-/

namespace TracedMachine

/-- Something that is asked of allocation counters, or that they are told. -/
inductive CounterCall where
  | start
  | stop
  | record (e : AllocEvent)

/-- Does what is asked. -/
def CounterCall.perform (c : AllocCounters) : CounterCall → AllocCounters
  | start => c.start
  | stop => c.stop
  | record e => c.record e

theorem CounterCall.tracksExternal_perform (c : AllocCounters) (call : CounterCall) :
    (call.perform c).tracksExternal = c.tracksExternal := by
  cases call with
  | start => exact c.tracksExternal_start
  | stop => rfl
  | record e => exact c.tracksExternal_record e

namespace ProfilerOp

/-- What a request means to the allocation counters, if it means anything to them.  A trace that
counts allocations starts and stops the counters, as the host does. -/
def counterCall? (p : Profiler) : ProfilerOp → Option CounterCall
  | startAlloc => some .start
  | stopAlloc | shutdown _ => some .stop
  | startTracing target bufferSize flags =>
    if flags.countsAllocs ∧ (p.startTracing target bufferSize flags).value.isOk then some .start
    else none
  | stopTracing _ => if p.recorder.session.any (·.flags.countsAllocs) then some .stop else none
  | event _ e => e.alloc?.map .record
  | _ => none

/-- The host starts or stops the allocation counters, or ends everything. -/
def drivesCounters : ProfilerOp → Bool
  | startAlloc | stopAlloc | shutdown _ => true
  | _ => false

/-- What is reported of memory. -/
def alloc? : ProfilerOp → Option AllocEvent
  | event _ e => e.alloc?
  | _ => none

end ProfilerOp

namespace Profiler

theorem alloc_startTracing (p : Profiler) (target : Target) (bufferSize : Nat)
    (flags : TraceFlags) :
    (p.startTracing target bufferSize flags).state.alloc =
      if flags.countsAllocs ∧ (p.startTracing target bufferSize flags).value.isOk then p.alloc.start
      else p.alloc := by
  cases hvalue : (p.recorder.start target bufferSize flags).value with
  | error e => simp [startTracing, hvalue, Except.isOk, Except.toBool]
  | ok _ =>
      cases hcounts : flags.countsAllocs <;>
        simp [startTracing, hvalue, hcounts, gateUp, Except.isOk, Except.toBool]

theorem Accounted.alloc_stopTracing {p : Profiler} (h : p.Accounted) (key : TraceKey) :
    (p.stopTracing key).state.alloc =
      if p.recorder.session.any (·.flags.countsAllocs) then p.alloc.stop else p.alloc := by
  cases hs : p.recorder.session with
  | none =>
      rw [(stopTracing_idle hs).1]
      rfl
  | some s => rw [stopTracing_open (by rw [hs]; rfl), h.countsAllocs, hs]

/-- An event does to the counters what it tells of memory; none is passed over. -/
theorem alloc_observe (p : Profiler) (thread : ThreadId) (e : Event) :
    (p.observe thread e).alloc = p.alloc.observe e := by
  unfold observe
  split
  · next hgated =>
    cases e with
    | alloc e => cases hgated
    | method | instruction | passBegan | passEnded | notice => rfl
  · cases e <;> rfl

/-- **What a request does to the counters.** -/
theorem Accounted.alloc_perform {p : Profiler} (h : p.Accounted) (op : ProfilerOp) :
    (op.perform p).alloc = (op.counterCall? p).elim p.alloc (CounterCall.perform p.alloc) := by
  cases op with
  | setClock | startAlloc | stopAlloc => rfl
  | connectEmulator | disconnectEmulator | startEmulator | startInstructions => rfl
  | startTracing target bufferSize flags =>
      show (p.startTracing target bufferSize flags).state.alloc = _
      rw [alloc_startTracing, ProfilerOp.counterCall?]
      split <;> rfl
  | stopTracing key =>
      show (p.stopTracing key).state.alloc = _
      rw [h.alloc_stopTracing, ProfilerOp.counterCall?]
      split <;> rfl
  | stopEmulator =>
      obtain hsame | ⟨n, -, hstopped⟩ := p.stopEmulator_cases
      · exact congrArg Profiler.alloc hsame
      · show p.stopEmulator.state.alloc = p.alloc
        rw [hstopped]
  | stopInstructions =>
      obtain hsame | ⟨n, -, hstopped⟩ := p.stopInstructions_cases
      · exact congrArg Profiler.alloc hsame
      · show (ProfilerOp.perform p .stopInstructions).alloc = p.alloc
        rw [hstopped]
  | event thread e =>
      show (p.observe thread e).alloc = _
      rw [alloc_observe]
      cases e <;> rfl
  | shutdown key =>
      show (p.shutdown key).state.alloc = p.alloc.stop
      -- counters that the end of the trace has stopped are stopped once more
      rw [state_shutdown]
      show (p.stopTracing key).state.alloc.stop = p.alloc.stop
      rw [h.alloc_stopTracing]
      split <;> rfl

/-- Whether memory outside the heap is counted never changes. -/
theorem Accounted.tracksExternal_after {p : Profiler} (h : p.Accounted) (ops : List ProfilerOp) :
    (p.after ops).alloc.tracksExternal = p.alloc.tracksExternal := by
  induction ops generalizing p with
  | nil => rfl
  | cons op ops ih =>
      refine (ih (h.perform op)).trans ?_
      rw [h.alloc_perform op]
      cases op.counterCall? p with
      | none => rfl
      | some call => exact call.tracksExternal_perform p.alloc

/-! ### Traces beside the host's counting -/

/-- A trace breaks into the counting of the host: it begins to count from zero what has been
counted already, or it ends and takes the counting with it. -/
def Disturbs (p : Profiler) : ProfilerOp → Prop
  | .startTracing target bufferSize flags =>
    (flags.countsAllocs ∧ (p.startTracing target bufferSize flags).value.isOk) ∧
      p.alloc.stats ≠ .zero p.alloc.tracksExternal
  | .stopTracing _ => p.recorder.session.any (·.flags.countsAllocs)
  | _ => False

/-- Some trace of a history breaks into the counting of the host. -/
def DisturbedIn (p : Profiler) : List ProfilerOp → Prop
  | [] => False
  | op :: ops => p.Disturbs op ∨ (op.perform p).DisturbedIn ops

instance (p : Profiler) : ∀ op : ProfilerOp, Decidable (p.Disturbs op)
  | .startTracing .. => inferInstanceAs (Decidable (_ ∧ _))
  | .stopTracing _ => inferInstanceAs (Decidable (_ = true))
  | .setClock _ | .startEmulator | .stopEmulator | .connectEmulator _ | .disconnectEmulator
  | .startInstructions | .stopInstructions | .startAlloc | .stopAlloc | .event .. | .shutdown _ =>
    .isFalse id

instance decidableDisturbedIn :
    ∀ (p : Profiler) (ops : List ProfilerOp), Decidable (p.DisturbedIn ops)
  | _, [] => .isFalse id
  | p, op :: ops =>
    have := decidableDisturbedIn (op.perform p) ops
    inferInstanceAs (Decidable (_ ∨ _))

/-- The counters are on and miss nothing at any point of a history, after they have counted some
events. -/
def CountsThrough (p : Profiler) (trackExternal : Bool) (before : List AllocEvent)
    (ops : List ProfilerOp) : Prop :=
  ∀ xs, xs <+: ops →
    (p.after xs).alloc = .counting trackExternal (before ++ xs.filterMap ProfilerOp.alloc?)

section

variable {p : Profiler} {trackExternal : Bool} {before : List AllocEvent}

theorem countsThrough_cons {op : ProfilerOp} {ops : List ProfilerOp} :
    p.CountsThrough trackExternal before (op :: ops) ↔
      p.alloc = .counting trackExternal before ∧
        (op.perform p).CountsThrough trackExternal (before ++ op.alloc?.toList) ops := by
  have hreported : ∀ xs : List ProfilerOp, before ++ (op :: xs).filterMap ProfilerOp.alloc? =
      before ++ op.alloc?.toList ++ xs.filterMap ProfilerOp.alloc? := by
    intro xs
    rw [List.append_assoc]
    cases hop : op.alloc? with
    | none => rw [List.filterMap_cons_none hop, Option.toList_none, List.nil_append]
    | some e => rw [List.filterMap_cons_some hop, Option.toList_some, List.singleton_append]
  constructor
  · intro hthrough
    constructor
    · have hfirst := hthrough [] List.nil_prefix
      rwa [List.filterMap_nil, List.append_nil] at hfirst
    · intro xs hxs
      rw [← hreported]
      exact hthrough (op :: xs) (List.cons_prefix_cons.mpr ⟨rfl, hxs⟩)
  · rintro ⟨hfirst, hrest⟩ xs hxs
    obtain rfl | ⟨ys, rfl, hys⟩ := List.prefix_cons_iff.mp hxs
    · rwa [List.filterMap_nil, List.append_nil]
    · rw [hreported]
      exact hrest ys hys

/-- One request: the counters go on, or it disturbs them. -/
theorem Accounted.counting_perform_iff (h : p.Accounted)
    (hcounting : p.alloc = .counting trackExternal before) {op : ProfilerOp}
    (hop : op.drivesCounters = false) :
    (op.perform p).alloc = .counting trackExternal (before ++ op.alloc?.toList) ↔
      ¬ p.Disturbs op := by
  have halloc := h.alloc_perform op
  cases op with
  | startAlloc | stopAlloc | shutdown => cases hop
  | startTracing target bufferSize flags =>
      rw [halloc]
      simp only [ProfilerOp.counterCall?, ProfilerOp.alloc?, Disturbs, Option.toList_none,
        List.append_nil]
      by_cases hbegun : flags.countsAllocs ∧ (p.startTracing target bufferSize flags).value.isOk
      · -- counting begins again from zero, which is seen unless nothing has been counted
        rw [if_pos hbegun, Option.elim_some, CounterCall.perform, hcounting, AllocCounters.start_eq,
          AllocCounters.tracksExternal_counting]
        simp only [AllocCounters.counting, AllocStats.total_nil, AllocCounters.mk.injEq, true_and,
          hbegun, ne_eq, not_not]
        exact eq_comm
      · simp [hbegun, hcounting]
  | stopTracing key =>
      rw [halloc]
      simp only [ProfilerOp.counterCall?, ProfilerOp.alloc?, Disturbs, Option.toList_none,
        List.append_nil]
      by_cases hcounts : p.recorder.session.any (·.flags.countsAllocs) = true
      · rw [if_pos hcounts, hcounting]
        simp [CounterCall.perform, AllocCounters.stop, AllocCounters.counting, hcounts]
      · simp [hcounts, hcounting]
  | event thread e =>
      rw [halloc]
      simp only [ProfilerOp.counterCall?, ProfilerOp.alloc?, Disturbs, not_false_eq_true, iff_true]
      cases e.alloc? with
      | none => simp [hcounting]
      | some e => simp [hcounting, CounterCall.perform, AllocCounters.record_counting]
  | setClock | startEmulator | stopEmulator | connectEmulator | disconnectEmulator =>
      simp [halloc, ProfilerOp.counterCall?, ProfilerOp.alloc?, Disturbs, hcounting]
  | startInstructions | stopInstructions =>
      simp [halloc, ProfilerOp.counterCall?, ProfilerOp.alloc?, Disturbs, hcounting]

/-- A whole history: the counters go on at every point, or it disturbs them. -/
theorem Accounted.countsThrough_iff (h : p.Accounted)
    (hcounting : p.alloc = .counting trackExternal before) {ops : List ProfilerOp}
    (hops : ∀ op ∈ ops, op.drivesCounters = false) :
    p.CountsThrough trackExternal before ops ↔ ¬ p.DisturbedIn ops := by
  induction ops generalizing p before with
  | nil =>
      refine iff_of_true (fun xs hxs => ?_) not_false
      rw [List.prefix_nil.mp hxs, List.filterMap_nil, List.append_nil]
      exact hcounting
  | cons op ops ih =>
      have hstep := h.counting_perform_iff hcounting (hops op List.mem_cons_self)
      have hrest : ∀ op' ∈ ops, op'.drivesCounters = false :=
        fun op' hop' => hops op' (List.mem_cons_of_mem op hop')
      rw [DisturbedIn, not_or, ← hstep, countsThrough_cons]
      constructor
      · rintro ⟨-, hthrough⟩
        -- the rest of the history begins with counters that have gone on
        have hnext := hthrough [] List.nil_prefix
        rw [List.filterMap_nil, List.append_nil] at hnext
        exact ⟨hnext, (ih (h.perform op) hnext hrest).mp hthrough⟩
      · rintro ⟨hnext, hquiet⟩
        exact ⟨hcounting, (ih (h.perform op) hnext hrest).mpr hquiet⟩

end

/-- **Counting beside traces.**  From a start by the host until the host starts or stops the
counters again or shuts the profiler down, the counters are on and have counted all that was
reported, at every point, if and only if no trace disturbs them. -/
theorem counting_undisturbed_iff (settings : ProfilerSettings) (before ops : List ProfilerOp)
    (hops : ∀ op ∈ ops, op.drivesCounters = false) :
    let p := ((new settings).after before).startAlloc
    (∀ xs, xs <+: ops →
        (p.after xs).alloc =
          .counting settings.trackExternal (xs.filterMap ProfilerOp.alloc?)) ↔
      ¬ p.DisturbedIn ops := by
  have hnew := accounted_new settings
  have hreached := hnew.after before
  have hexternal : ((new settings).after before).alloc.tracksExternal = settings.trackExternal :=
    (hnew.tracksExternal_after before).trans (AllocCounters.tracksExternal_new _)
  have hstarted : ((new settings).after before).startAlloc.alloc =
      .counting settings.trackExternal [] := by
    show ((new settings).after before).alloc.start = _
    rw [AllocCounters.start_eq, hexternal]
  exact (hreached.perform .startAlloc).countsThrough_iff hstarted hops

/-- A trace that counts allocations begins before anything was counted, a second one is refused, and
the host misses nothing as long as the first is open. -/
theorem counting_undisturbed_early :
    let trace := ProfilerOp.startTracing (.writer {}) 1000 .allocCounts
    let ops := [trace, .event ⟨1⟩ (.alloc (.allocated 24)), trace,
      .event ⟨2⟩ (.alloc (.freed 24)), .startEmulator]
    (∀ op ∈ ops, op.drivesCounters = false) ∧
      ¬ (new {}).startAlloc.DisturbedIn ops ∧
      ((new {}).startAlloc.after ops).alloc =
        .counting true [.allocated 24, .freed 24] := by
  intro trace ops
  have hops : ∀ op ∈ ops, op.drivesCounters = false := by decide
  have hquiet : ¬ (new {}).startAlloc.DisturbedIn ops := by decide
  exact ⟨hops, hquiet, (counting_undisturbed_iff {} [] ops hops).mpr hquiet ops List.prefix_rfl⟩

/-- **A trace takes the counts of the host.**  An object was counted; the beginning of a trace that
counts allocations, too, forgets it, and after the end of the trace nothing is counted. -/
theorem trace_takes_counts :
    let counted := (new {}).startAlloc.after [.event ⟨1⟩ (.alloc (.allocated 24))]
    let traced := counted.after [.startTracing (.writer {}) 1000 .allocCounts]
    let stopped := traced.after [.stopTracing ⟨fun _ => none, []⟩]
    let later := stopped.after [.event ⟨1⟩ (.alloc (.allocated 8))]
    counted.alloc = .counting true [.allocated 24] ∧
      traced.alloc = .counting true [] ∧
      stopped.alloc.enabled = false ∧ later.alloc.stats.heap.allocCount = 0 := by
  decide

end Profiler

end TracedMachine
