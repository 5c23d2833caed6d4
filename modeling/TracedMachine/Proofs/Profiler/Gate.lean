import TracedMachine.Profiler
import TracedMachine.Proofs.EventStream
import TracedMachine.Proofs.Recorder.Log

/-!
# Proofs — Profiler — Gate

The gate of a profiler.  `active` is a counter of its own, changed by hand beside the states that it
counts: an open trace, the starts of the stream to an emulator, the starts of counting operations.
It counts them exactly (`Profiler.Accounted`), and a trace has turned allocation counts on exactly
if it was started so.

**The gate** (`Profiler.gate_is_kept`).  After any history the counts are right; what is refused
changes nothing; a trace that is stopped ends and lowers the gate, also if it cannot be written; and
a shutdown ends everything.  So nobody listens while the gate is closed, and an event does what it
would do if there were no gate (`Profiler.Accounted.observe`).

Each request comes to one of a few new states (`startTracing_cases`, `stopTracing_open`,
`stopTracing_idle`, `stopEmulator_cases`, `stopInstructions_cases`, `state_shutdown`); that it keeps
the counts right is `Profiler.Accounted.perform`, and a history of them is
`Profiler.Accounted.after`.  No counter is above the number of starts, so counters of 64 bits hold
them as long as there are fewer than `2 ^ 64` starts.
-/

namespace TracedMachine

/-- Something that is asked of a profiler, or that it is told. -/
inductive ProfilerOp where
  | setClock (clock : UInt64)
  | startTracing (target : Target) (bufferSize : Nat) (flags : TraceFlags)
  | stopTracing (key : TraceKey)
  | startEmulator
  | stopEmulator
  | connectEmulator (capacity : Nat)
  | disconnectEmulator
  | startInstructions
  | stopInstructions
  | startAlloc
  | stopAlloc
  | event (thread : ThreadId) (e : Event)
  | shutdown (key : TraceKey)

namespace ProfilerOp

/-- Does what is asked. -/
def perform (p : Profiler) : ProfilerOp → Profiler
  | setClock clock => p.setClock clock
  | startTracing target bufferSize flags => (p.startTracing target bufferSize flags).state
  | stopTracing key => (p.stopTracing key).state
  | startEmulator => p.startEmulator.state
  | stopEmulator => p.stopEmulator.state
  | connectEmulator capacity => { p with emulator := (p.emulator.connect capacity).state }
  | disconnectEmulator => { p with emulator := p.emulator.disconnect }
  | startInstructions => p.startInstructions
  | stopInstructions =>
    match p.stopInstructions with
    | .ok p => p
    | .error _ => p
  | startAlloc => p.startAlloc
  | stopAlloc => p.stopAlloc
  | event thread e => p.observe thread e
  | shutdown key => (p.shutdown key).state

/-- The request may open the gate. -/
def enables : ProfilerOp → Bool
  | startTracing .. | startEmulator | startInstructions => true
  | _ => false

end ProfilerOp

namespace Profiler

/-- The profiler after a history. -/
def after (p : Profiler) (ops : List ProfilerOp) : Profiler := ops.foldl ProfilerOp.perform p

/-- The gate counts who listens. -/
structure Accounted (p : Profiler) : Prop where
  active : p.active =
    p.recorder.enabled.toNat + p.emulator.enableCount + p.instructions.enableCount
  /-- Allocation counts are those of the open trace exactly if it was started with them. -/
  countsAllocs : p.traceCountsAllocs = p.recorder.session.any (·.flags.countsAllocs)

theorem accounted_new (settings : ProfilerSettings) : (new settings).Accounted := ⟨rfl, rfl⟩

/-! ### What a request comes to -/

section

variable {p : Profiler} {key : TraceKey}

/-- A trace begins in an idle recorder and opens the gate, or nothing changes. -/
theorem startTracing_cases (p : Profiler) (target : Target) (bufferSize : Nat)
    (flags : TraceFlags) :
    (p.startTracing target bufferSize flags).state = p ∨
      p.recorder.session = none ∧ ∃ sink,
        (p.startTracing target bufferSize flags).state =
          { p with
            recorder := p.recorder.begin sink bufferSize flags
            alloc := if flags.countsAllocs then p.alloc.start else p.alloc
            traceCountsAllocs := if flags.countsAllocs then true else p.traceCountsAllocs
            active := p.active + 1 } := by
  by_cases hok : p.recorder.session = none ∧ 41 ≤ bufferSize ∧ target.sink?.isSome
  · obtain ⟨hidle, hsize, hopens⟩ := hok
    obtain ⟨sink, hsink⟩ := Option.isSome_iff_exists.mp hopens
    obtain ⟨hvalue, hstate⟩ : (p.recorder.start target bufferSize flags).value = .ok () ∧
        (p.recorder.start target bufferSize flags).state =
          p.recorder.begin sink bufferSize flags := Recorder.start_ok hidle hsize hsink
    refine .inr ⟨hidle, sink, ?_⟩
    simp only [startTracing, hvalue, hstate]
    cases flags.countsAllocs <;> rfl
  · have hrefused : (p.recorder.start target bufferSize flags).value ≠ .ok () :=
      (Recorder.start_refused hok).1
    left
    unfold startTracing
    dsimp only
    split
    · rfl
    · next hvalue => exact absurd hvalue hrefused

/-- A trace ends, whatever comes of writing it. -/
theorem stopTracing_open (h : p.recorder.session.isSome) :
    (p.stopTracing key).state =
      { p with
        recorder := { p.recorder with session := none }
        alloc := if p.traceCountsAllocs then p.alloc.stop else p.alloc
        traceCountsAllocs := false
        active := p.active - 1 } := by
  have henabled : p.recorder.enabled = true := h
  simp only [stopTracing, henabled, if_true, Recorder.state_stop]
  cases p.traceCountsAllocs with
  | true => simp only [if_true, gateDown]
  | false => simp only [Bool.false_eq_true, if_false, gateDown]

theorem stopTracing_idle (h : p.recorder.session = none) :
    (p.stopTracing key).state = p ∧
      (p.stopTracing key).value = { result := .error .notTracing, sink := none } := by
  have hidle : p.recorder.enabled = false := by rw [Recorder.enabled, h]; rfl
  simp only [stopTracing, hidle, Recorder.stop_idle h key]
  exact ⟨rfl, rfl⟩

/-- The result of a stop is the recorder's. -/
theorem value_stopTracing (p : Profiler) (key : TraceKey) :
    (p.stopTracing key).value = (p.recorder.stop key).value := by
  unfold stopTracing
  dsimp only
  split <;> rfl

theorem session_stopTracing (p : Profiler) (key : TraceKey) :
    (p.stopTracing key).state.recorder.session = none := by
  cases h : p.recorder.session with
  | none => rw [(stopTracing_idle h).1, h]
  | some s => rw [stopTracing_open (by rw [h]; rfl)]

/-- One start of the stream is taken back and lowers the gate, or nothing changes. -/
theorem stopEmulator_cases (p : Profiler) :
    p.stopEmulator.state = p ∨ ∃ n, p.emulator.enableCount = n + 1 ∧
      p.stopEmulator.state =
        { p with emulator := { p.emulator with enableCount := n }, active := p.active - 1 } := by
  unfold stopEmulator EventStream.stop
  cases p.emulator.enableCount with
  | zero => exact .inl rfl
  | succ n => exact .inr ⟨n, rfl, rfl⟩

/-- One start of counting is taken back and lowers the gate, or nothing changes. -/
theorem stopInstructions_cases (p : Profiler) :
    ProfilerOp.perform p .stopInstructions = p ∨ ∃ n, p.instructions.enableCount = n + 1 ∧
      ProfilerOp.perform p .stopInstructions =
        { p with
          instructions := { p.instructions with enableCount := n }
          active := p.active - 1 } := by
  unfold ProfilerOp.perform stopInstructions OpcodeCounts.stop
  cases p.instructions.enableCount with
  | zero => exact .inl rfl
  | succ n => exact .inr ⟨n, rfl, rfl⟩

/-- A shutdown stops the trace and then ends the rest. -/
theorem state_shutdown (p : Profiler) (key : TraceKey) :
    let stopped := (p.stopTracing key).state
    (p.shutdown key).state =
      { stopped with
        emulator :=
          if stopped.emulator.enabled then stopped.emulator.disable.disconnect
          else stopped.emulator
        instructions := stopped.instructions.disable
        alloc := stopped.alloc.stop
        active := 0 } := by
  dsimp only
  cases h : p.recorder.session with
  | none =>
      have hidle : p.recorder.enabled = false := by rw [Recorder.enabled, h]; rfl
      rw [(stopTracing_idle h).1]
      simp only [shutdown, hidle, Bool.false_eq_true, if_false]
      split <;> rfl
  | some s =>
      have hopen : p.recorder.enabled = true := by rw [Recorder.enabled, h]; rfl
      simp only [shutdown, hopen, if_true]
      split <;> rfl

end

end Profiler

/-! ### Events -/

/-- Recording an event leaves what an open trace was started with. -/
theorem Recorder.flags_observe (r : Recorder) (thread : ThreadId) (e : Event) :
    (r.observe thread e).session.map (·.flags) = r.session.map (·.flags) := by
  have hadd : ∀ method action,
      (r.add thread method action).session.map (·.flags) = r.session.map (·.flags) := by
    intro method action
    rcases r with ⟨_ | s, clock⟩
    · rfl
    · by_cases hroom : s.cursor < s.capacity
      · simp only [add, Session.record_of_lt hroom, Option.map_some]
      · simp only [add, Session.record_of_le (Nat.le_of_not_lt hroom), Option.map_some]
  cases e with
  | method id action => exact hadd id action
  | passBegan pass => exact hadd pass.method .enter
  | passEnded pass => exact hadd pass.method .exit
  | instruction _ | alloc _ | notice _ => rfl

theorem OpcodeCounts.enableCount_count (c : OpcodeCounts) (op : Opcode) :
    (c.count op).enableCount = c.enableCount := by
  unfold count
  split <;> rfl

namespace Profiler

/-- Being told of an event leaves who listens, and for what. -/
theorem hear_keeps (p : Profiler) (thread : ThreadId) (e : Event) :
    (p.hear thread e).active = p.active ∧
      (p.hear thread e).traceCountsAllocs = p.traceCountsAllocs ∧
      (p.hear thread e).recorder = p.recorder.observe thread e ∧
      (p.hear thread e).emulator.enableCount = p.emulator.enableCount ∧
      (p.hear thread e).instructions.enableCount = p.instructions.enableCount := by
  cases e with
  | method id action => exact ⟨rfl, rfl, rfl, (p.emulator.emit_kept _).1, rfl⟩
  | instruction op => exact ⟨rfl, rfl, rfl, rfl, p.instructions.enableCount_count op⟩
  | passBegan _ | passEnded _ | alloc _ | notice _ => exact ⟨rfl, rfl, rfl, rfl, rfl⟩

namespace Accounted

variable {p : Profiler}

theorem hear (h : p.Accounted) (thread : ThreadId) (e : Event) : (p.hear thread e).Accounted := by
  obtain ⟨hactive, hcounts, hrecorder, hemulator, hinstructions⟩ := p.hear_keeps thread e
  have hflags := p.recorder.flags_observe thread e
  have henabled : (p.recorder.observe thread e).enabled = p.recorder.enabled := by
    have hsome := congrArg Option.isSome hflags
    rwa [Option.isSome_map, Option.isSome_map] at hsome
  have hany : (p.recorder.observe thread e).session.any (·.flags.countsAllocs) =
      p.recorder.session.any (·.flags.countsAllocs) := by
    have hmap := congrArg (Option.any (·.countsAllocs)) hflags
    rwa [Option.any_map, Option.any_map] at hmap
  constructor
  · rw [hactive, hrecorder, hemulator, hinstructions, henabled]
    exact h.active
  · rw [hcounts, hrecorder, hany]
    exact h.countsAllocs

/-- **The gate does not matter.**  An event does what it would do if there were no gate. -/
theorem observe (h : p.Accounted) (thread : ThreadId) (e : Event) :
    p.observe thread e = p.hear thread e := by
  unfold Profiler.observe
  split
  · next hclosed =>
    -- nobody listens while the gate is closed
    have hzero : p.active = 0 := by
      simp only [isActive, Bool.and_eq_true, Bool.not_eq_true', ne_eq, decide_not,
        Bool.not_eq_false', decide_eq_true_eq] at hclosed
      exact hclosed.2
    have hactive := h.active
    have hidle : p.recorder.session = none := by
      cases hs : p.recorder.session with
      | none => rfl
      | some s =>
          rw [Recorder.enabled, hs, Option.isSome_some, Bool.toNat_true] at hactive
          omega
    have hemulator : p.emulator.enabled = false := by
      simp only [EventStream.enabled, ne_eq, decide_eq_false_iff_not, not_not]
      omega
    have hinstructions : p.instructions.enabled = false := by
      simp only [OpcodeCounts.enabled, ne_eq, decide_eq_false_iff_not, not_not]
      omega
    cases e with
    | method id action =>
        simp only [Profiler.hear, Recorder.observe, Recorder.add_idle hidle, EventStream.emit,
          hemulator, Bool.not_false, if_true]
    | instruction op => simp [Profiler.hear, OpcodeCounts.count, hinstructions]
    | passBegan pass => simp only [Profiler.hear, Recorder.observe, Recorder.add_idle hidle]
    | passEnded pass => simp only [Profiler.hear, Recorder.observe, Recorder.add_idle hidle]
    | alloc _ | notice _ => cases hclosed
  · rfl

/-! ### Requests -/

theorem idle (h : p.Accounted) (hidle : p.recorder.session = none) :
    p.active = p.emulator.enableCount + p.instructions.enableCount ∧
      p.traceCountsAllocs = false := by
  obtain ⟨hactive, hcounts⟩ := h
  rw [hidle] at hcounts
  rw [Recorder.enabled, hidle, Option.isSome_none, Bool.toNat_false, Nat.zero_add] at hactive
  exact ⟨hactive, hcounts⟩

theorem opened (h : p.Accounted) (hopen : p.recorder.session.isSome) :
    p.active = 1 + p.emulator.enableCount + p.instructions.enableCount := by
  have hactive := h.active
  rwa [Recorder.enabled, hopen, Bool.toNat_true] at hactive

theorem startTracing (h : p.Accounted) (target : Target) (bufferSize : Nat) (flags : TraceFlags) :
    (p.startTracing target bufferSize flags).state.Accounted := by
  obtain hsame | ⟨hidle, sink, hstarted⟩ := p.startTracing_cases target bufferSize flags
  · rwa [hsame]
  · obtain ⟨hactive, hcounts⟩ := h.idle hidle
    rw [hstarted]
    constructor
    · show p.active + 1 = 1 + p.emulator.enableCount + p.instructions.enableCount
      omega
    · show (if flags.countsAllocs then true else p.traceCountsAllocs) = flags.countsAllocs
      rw [hcounts]
      cases flags.countsAllocs <;> rfl

theorem stopTracing (h : p.Accounted) (key : TraceKey) :
    (p.stopTracing key).state.Accounted := by
  cases hs : p.recorder.session with
  | none =>
      rw [(stopTracing_idle hs).1]
      exact h
  | some s =>
      have hopen : p.recorder.session.isSome := by rw [hs]; rfl
      have hactive := h.opened hopen
      rw [stopTracing_open hopen]
      refine ⟨?_, rfl⟩
      show p.active - 1 = 0 + p.emulator.enableCount + p.instructions.enableCount
      omega

theorem stopEmulator (h : p.Accounted) : p.stopEmulator.state.Accounted := by
  obtain hsame | ⟨n, hcount, hstopped⟩ := p.stopEmulator_cases
  · rwa [hsame]
  · have hactive := h.active
    rw [hstopped]
    refine ⟨?_, h.countsAllocs⟩
    show p.active - 1 = p.recorder.enabled.toNat + n + p.instructions.enableCount
    omega

theorem stopInstructions (h : p.Accounted) :
    (ProfilerOp.perform p .stopInstructions).Accounted := by
  obtain hsame | ⟨n, hcount, hstopped⟩ := p.stopInstructions_cases
  · rwa [hsame]
  · have hactive := h.active
    rw [hstopped]
    refine ⟨?_, h.countsAllocs⟩
    show p.active - 1 = p.recorder.enabled.toNat + p.emulator.enableCount + n
    omega

/-- After a shutdown nobody listens. -/
theorem shutdown (h : p.Accounted) (key : TraceKey) :
    let q := (p.shutdown key).state
    q.active = 0 ∧ q.recorder.session = none ∧ q.emulator.enableCount = 0 ∧
      q.instructions.enableCount = 0 ∧ q.alloc.enabled = false ∧ q.traceCountsAllocs = false := by
  have hstopped := (h.stopTracing key).idle (p.session_stopTracing key)
  have hemulator : ∀ s : EventStream,
      (if s.enabled then s.disable.disconnect else s).enableCount = 0 := by
    intro s
    split
    · rfl
    · next hdisabled =>
      simp only [EventStream.enabled, ne_eq, decide_eq_true_eq, not_not] at hdisabled
      exact hdisabled
  dsimp only
  rw [state_shutdown]
  exact ⟨rfl, p.session_stopTracing key, hemulator _, rfl, rfl, hstopped.2⟩

/-- A request keeps the counts right. -/
theorem perform (h : p.Accounted) (op : ProfilerOp) : (op.perform p).Accounted := by
  have hactive := h.active
  cases op with
  | setClock clock | startAlloc | stopAlloc => exact ⟨h.active, h.countsAllocs⟩
  | connectEmulator capacity | disconnectEmulator => exact ⟨h.active, h.countsAllocs⟩
  | startTracing target bufferSize flags => exact h.startTracing target bufferSize flags
  | stopTracing key => exact h.stopTracing key
  | startEmulator =>
      refine ⟨?_, h.countsAllocs⟩
      show p.active + 1 =
        p.recorder.enabled.toNat + (p.emulator.enableCount + 1) + p.instructions.enableCount
      omega
  | stopEmulator => exact h.stopEmulator
  | startInstructions =>
      refine ⟨?_, h.countsAllocs⟩
      show p.active + 1 =
        p.recorder.enabled.toNat + p.emulator.enableCount + (p.instructions.enableCount + 1)
      omega
  | stopInstructions => exact h.stopInstructions
  | event thread e =>
      show (p.observe thread e).Accounted
      rw [h.observe thread e]
      exact h.hear thread e
  | shutdown key =>
      obtain ⟨hzero, hidle, hemulator, hinstructions, -, hcounts⟩ := h.shutdown key
      constructor
      · simp only [ProfilerOp.perform, hzero, Recorder.enabled, hidle, hemulator, hinstructions]
        rfl
      · simp only [ProfilerOp.perform, hcounts, hidle]
        rfl

theorem after (h : p.Accounted) (ops : List ProfilerOp) : (p.after ops).Accounted := by
  induction ops generalizing p with
  | nil => exact h
  | cons op ops ih => exact ih (h.perform op)

/-- A request opens the gate once at most. -/
theorem active_perform (h : p.Accounted) (op : ProfilerOp) :
    (op.perform p).active ≤ p.active + if op.enables then 1 else 0 := by
  cases op with
  | setClock clock | startAlloc | stopAlloc => exact Nat.le_refl _
  | connectEmulator capacity | disconnectEmulator => exact Nat.le_refl _
  | startEmulator | startInstructions => exact Nat.le_refl _
  | startTracing target bufferSize flags =>
      show (p.startTracing target bufferSize flags).state.active ≤ p.active + 1
      obtain hsame | ⟨-, sink, hstarted⟩ := p.startTracing_cases target bufferSize flags
      · rw [hsame]
        exact Nat.le_succ _
      · exact Nat.le_of_eq (congrArg Profiler.active hstarted)
  | stopTracing key =>
      show (p.stopTracing key).state.active ≤ p.active
      cases hs : p.recorder.session with
      | none => exact Nat.le_of_eq (congrArg Profiler.active (stopTracing_idle hs).1)
      | some s =>
          rw [stopTracing_open (by rw [hs]; rfl)]
          exact Nat.sub_le _ _
  | stopEmulator =>
      show p.stopEmulator.state.active ≤ p.active
      obtain hsame | ⟨n, -, hstopped⟩ := p.stopEmulator_cases
      · exact Nat.le_of_eq (congrArg Profiler.active hsame)
      · rw [hstopped]
        exact Nat.sub_le _ _
  | stopInstructions =>
      show (ProfilerOp.perform p .stopInstructions).active ≤ p.active
      obtain hsame | ⟨n, -, hstopped⟩ := p.stopInstructions_cases
      · exact Nat.le_of_eq (congrArg Profiler.active hsame)
      · rw [hstopped]
        exact Nat.sub_le _ _
  | event thread e =>
      show (p.observe thread e).active ≤ p.active
      rw [h.observe thread e]
      exact Nat.le_of_eq (p.hear_keeps thread e).1
  | shutdown key =>
      rw [ProfilerOp.perform, (h.shutdown key).1]
      exact Nat.zero_le _

/-- The gate has not been opened more often than it was asked for. -/
theorem active_after (h : p.Accounted) (ops : List ProfilerOp) :
    (p.after ops).active ≤ p.active + ops.countP (·.enables) := by
  induction ops generalizing p with
  | nil => exact Nat.le_refl _
  | cons op ops ih =>
      have hstep := h.active_perform op
      have hrest := ih (h.perform op)
      rw [List.countP_cons]
      show ((op.perform p).after ops).active ≤ _
      omega

end Accounted

/-! ### The gate -/

/-- **The gate, after a history with so many starts.** -/
structure GateKept (p : Profiler) (starts : Nat) : Prop where
  accounted : p.Accounted
  /-- No count is above the number of starts. -/
  fits : p.active ≤ starts ∧ p.emulator.enableCount ≤ starts ∧ p.instructions.enableCount ≤ starts
  /-- A trace that cannot begin changes nothing. -/
  start_failed : ∀ target bufferSize flags e,
    (p.startTracing target bufferSize flags).value = .error e →
      (p.startTracing target bufferSize flags).state = p
  /-- Stopping what is not running changes nothing. -/
  stopTracing_idle : p.recorder.session = none → ∀ key,
    (p.stopTracing key).state = p ∧ (p.stopTracing key).value.result = .error .notTracing
  stopEmulator_idle : p.emulator.enableCount = 0 →
    p.stopEmulator.state = p ∧ p.stopEmulator.value = .error .notTracing
  stopInstructions_idle : p.instructions.enableCount = 0 →
    p.stopInstructions = .error .notCounting
  stopAlloc_idle : p.alloc.enabled = false → p.stopAlloc = p
  /-- A trace that is stopped ends and lowers the gate, whatever comes of writing it. -/
  stopTracing_open : p.recorder.session.isSome → ∀ key,
    (p.stopTracing key).state.recorder.session = none ∧
      (p.stopTracing key).state.active + 1 = p.active ∧
      (p.stopTracing key).state.traceCountsAllocs = false
  /-- After a shutdown nothing is running. -/
  shutdown : ∀ key,
    let q := (p.shutdown key).state
    q.active = 0 ∧ q.recorder.session = none ∧ q.emulator.enableCount = 0 ∧
      q.instructions.enableCount = 0 ∧ q.alloc.enabled = false ∧ q.traceCountsAllocs = false
  /-- An event does what it would do if there were no gate. -/
  ungated : ∀ thread e, p.observe thread e = p.hear thread e

/-- **The gate is kept** by every history. -/
theorem gate_is_kept (settings : ProfilerSettings) (ops : List ProfilerOp) :
    ((new settings).after ops).GateKept (ops.countP (·.enables)) := by
  have h : ((new settings).after ops).Accounted := (accounted_new settings).after ops
  refine
    { accounted := h
      fits := ?_
      start_failed := fun target bufferSize flags e he => ?_
      stopTracing_idle := fun hidle key => ?_
      stopEmulator_idle := fun hidle => ?_
      stopInstructions_idle := fun hidle => ?_
      stopAlloc_idle := fun hidle => ?_
      stopTracing_open := fun hopen key => ?_
      shutdown := h.shutdown
      ungated := h.observe }
  · have hfits := (accounted_new settings).active_after ops
    rw [show (new settings).active = 0 from rfl, Nat.zero_add] at hfits
    have hcounts := h.active
    exact ⟨hfits, by omega, by omega⟩
  · unfold Profiler.startTracing at he ⊢
    dsimp only at he ⊢
    split
    · rfl
    · next hvalue =>
      simp only [hvalue] at he
      cases he
  · refine ⟨(Profiler.stopTracing_idle hidle).1, ?_⟩
    rw [(Profiler.stopTracing_idle hidle).2]
  · simp only [Profiler.stopEmulator, EventStream.stop, hidle]
    exact ⟨trivial, trivial⟩
  · simp only [Profiler.stopInstructions, OpcodeCounts.stop, hidle]
    rfl
  · generalize (new settings).after ops = p at hidle
    rcases p with ⟨_, _, _, _, _, ⟨enabled, _⟩, _⟩
    cases hidle
    rfl
  · have hactive := h.opened hopen
    rw [Profiler.stopTracing_open hopen]
    refine ⟨rfl, ?_, rfl⟩
    show _ - 1 + 1 = _
    omega

end Profiler

end TracedMachine
