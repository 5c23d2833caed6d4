import TracedMachine.Proofs.Machine.Bracketed
import TracedMachine.Proofs.Machine.Loaded
import TracedMachine.Proofs.MethodTable

/-!
# Proofs — Vm — History

Histories of a virtual machine.  Threads are attached and detached, modules are loaded, work is done
on behalf of threads, and the profiler is asked to begin and to end things (`VmOp`).  Beside the
machine goes an event log that knows nothing of it but what it is asked and what it reports
(`LoggedVm`).

After any history the recorder of the machine holds what the log holds, and every event of an open
trace is of a loaded method or of a synthetic one (`LoggedVm.Sound.after`).  A step keeps four other
things for that: the gate counts who listens, so that no event is passed over; methods are numbered
in the order of loading; and whatever runs, or can be called, is loaded code.
-/

namespace TracedMachine

/-! ### Work for threads -/

/-- What a turn leaves of the machine, and what it reports. -/
def Machine.Turn.left : Turn → Machine × List Event
  | .goesOn m es | .ended _ m es => (m, es)

/-- One turn of the call of a thread that began above `base`, if there is such a thread. -/
def Vm.turn (vm : Vm) (place base : Nat) : Vm :=
  (vm.withThread place fun m o =>
    let done := (m.advance base).left
    ((), done.1, done.2.foldl Observers.observe o)).elim vm Prod.snd

/-- Something that is asked of a machine on behalf of a thread.  Modules are named by their place in
the order of loading. -/
inductive ThreadOp where
  /-- Calls a method, for up to a number of turns. -/
  | invoke (turns number index : Nat) (args : List Word)
  /-- Takes one turn of a call that has begun above `base` and stands still meanwhile. -/
  | turn (base : Nat)
  | define (descriptor : String) (fields : Nat)
  | find (descriptor : String)
  | resolve (number index : Nat)
  | heap (op : HeapOp)

namespace ThreadOp

/-- Does what is asked, if there are such a thread and such a module. -/
def perform (vm : Vm) (modules : Array Module) (place : Nat) : ThreadOp → Vm
  | invoke turns number index args =>
    match modules[number]? with
    | none => vm
    | some home => (vm.invoke turns place home index args).elim vm Prod.snd
  | turn base => vm.turn place base
  | define descriptor fields =>
    (vm.performOnClasses place (·.define descriptor fields)).elim vm Prod.snd
  | find descriptor => (vm.performOnClasses place (·.find descriptor)).elim vm Prod.snd
  | resolve number index =>
    match modules[number]? with
    | none => vm
    | some home => (vm.perform place (·.resolveClass home index)).elim vm Prod.snd
  | heap op => (vm.performOnHeap place op.perform).elim vm Prod.snd

/-- What is done to the thread's stack and to the store, and what is reported of it; nothing if
there is no such module. -/
def work? (modules : Array Module) : ThreadOp → Option (Machine → Machine × List Event)
  | invoke turns number index args =>
    modules[number]?.map fun home m =>
      match m.invokeFor Machine.report turns home index args [] with
      | .ended _ m es | .running m es => (m, es)
  | turn base => some fun m => (m.advance base).left
  | define descriptor fields => some fun m =>
    let done := m.store.classes.define descriptor fields
    ({ m with store := { m.store with classes := done.state } }, done.events)
  | find descriptor => some fun m =>
    let done := m.store.classes.find descriptor
    ({ m with store := { m.store with classes := done.state } }, done.events)
  | resolve number index =>
    modules[number]?.map fun home m =>
      let done := m.store.resolveClass home index
      ({ m with store := done.state }, done.events)
  | heap op => some fun m =>
    let done := op.perform m.store.heap
    ({ m with store := { m.store with heap := done.state } }, done.events)

variable {vm : Vm} {modules : Array Module} {place : Nat} {op : ThreadOp}

/-- Without the thread or the module nothing is done. -/
theorem perform_absent
    (h : op.work? modules = none ∨ vm.threads.get? place = none ∨ vm.callStacks[place]? = none) :
    op.perform vm modules place = vm := by
  rcases h with h | h
  · cases op with
    | invoke turns number index args =>
        simp only [perform, Option.map_eq_none_iff.mp h]
    | resolve number index =>
        simp only [perform, Option.map_eq_none_iff.mp h]
    | turn | define | find | heap => cases h
  · have hnone : ∀ {α : Type} (work : Machine → Observers → α × Machine × Observers),
        vm.withThread place work = none := fun work => Vm.withThread_eq_none h
    cases op with
    | invoke turns number index args =>
        cases hmodule : modules[number]? with
        | none => simp only [perform, hmodule]
        | some home => simp only [perform, hmodule, Vm.invoke, hnone, Option.elim_none]
    | turn base => simp only [perform, Vm.turn, hnone, Option.elim_none]
    | resolve number index =>
        cases hmodule : modules[number]? with
        | none => simp only [perform, hmodule]
        | some home => simp only [perform, hmodule, Vm.perform, hnone, Option.elim_none]
    | define | find =>
        simp only [perform, Vm.performOnClasses, Vm.perform, hnone, Option.elim_none]
    | heap => simp only [perform, Vm.performOnHeap, Vm.perform, hnone, Option.elim_none]

/-- **Work for a thread** is done on its stack and the store, and what is reported of it is shown to
those who observe the thread. -/
theorem perform_present {work : Machine → Machine × List Event} {thread : Thread} {stack : Stack}
    (hwork : op.work? modules = some work) (hthread : vm.threads.get? place = some thread)
    (hstack : vm.callStacks[place]? = some stack) :
    op.perform vm modules place =
      let done := work ⟨stack, vm.store⟩
      vm.resume place done.1 (done.2.foldl Observers.observe (vm.observers thread)) := by
  cases op with
  | invoke turns number index args =>
      obtain ⟨home, hhome, rfl⟩ := Option.map_eq_some_iff.mp hwork
      simp only [perform, hhome]
      rw [Vm.invoke, Vm.withThread_eq hthread hstack, Machine.invokeFor_observe]
      cases Machine.invokeFor Machine.report turns ⟨stack, vm.store⟩ home index args [] <;> rfl
  | turn base =>
      cases hwork
      rw [perform, Vm.turn, Vm.withThread_eq hthread hstack]
      rfl
  | resolve number index =>
      obtain ⟨home, hhome, rfl⟩ := Option.map_eq_some_iff.mp hwork
      simp only [perform, hhome]
      rw [Vm.perform, Vm.withThread_eq hthread hstack]
      rfl
  | define descriptor fields =>
      cases hwork
      rw [perform, Vm.performOnClasses, Vm.perform, Vm.withThread_eq hthread hstack]
      rfl
  | find descriptor =>
      cases hwork
      rw [perform, Vm.performOnClasses, Vm.perform, Vm.withThread_eq hthread hstack]
      rfl
  | heap op =>
      cases hwork
      rw [perform, Vm.performOnHeap, Vm.perform, Vm.withThread_eq hthread hstack]
      rfl

/-- Work for a thread leaves loaded code, and shows loaded methods. -/
theorem within_work {t : MethodTable} {work : Machine → Machine × List Event} {m : Machine}
    (hmodules : ∀ home ∈ modules, home.Within t) (hwork : op.work? modules = some work)
    (h : m.stack.Within t) : (work m).1.stack.Within t ∧ t.Covers (work m).2 := by
  cases op with
  | invoke turns number index args =>
      obtain ⟨home, hhome, rfl⟩ := Option.map_eq_some_iff.mp hwork
      have hrun := Machine.within_invokeFor h (hmodules home (Array.mem_of_getElem? hhome))
        turns index args
      dsimp only
      cases hended : m.invokeFor Machine.report turns home index args [] with
      | ended value m' es =>
          rw [hended] at hrun
          exact hrun
      | running m' es =>
          rw [hended] at hrun
          exact hrun
  | turn base =>
      cases hwork
      have hturn := Machine.within_advance h base
      dsimp only
      cases hadvance : m.advance base with
      | goesOn m' es | ended value m' es =>
          rw [hadvance] at hturn
          exact hturn
  | define descriptor fields =>
      cases hwork
      exact ⟨h, .passes (m.store.classes.showsPasses_define descriptor fields)⟩
  | find descriptor =>
      cases hwork
      exact ⟨h, .passes (m.store.classes.showsPasses_findChars descriptor.toList)⟩
  | resolve number index =>
      obtain ⟨home, -, rfl⟩ := Option.map_eq_some_iff.mp hwork
      exact ⟨h, .passes (m.store.showsPasses_resolveClass home index)⟩
  | heap op =>
      cases hwork
      exact ⟨h, .passes (op.showsPasses_perform m.store.heap)⟩

end ThreadOp

/-! ### Requests to the profiler -/

/-- Something that the profiler of a machine is asked. -/
inductive VmRequest where
  | setClock (clock : UInt64)
  | startTracing (target : Target) (bufferSize : Nat) (flags : TraceFlags)
  | stopTracing
  | startEmulator
  | stopEmulator
  | connectEmulator (capacity : Nat)
  | disconnectEmulator
  | startInstructions
  | stopInstructions
  | startAlloc
  | stopAlloc
  | shutdown

namespace VmRequest

/-- Does what is asked. -/
def perform (vm : Vm) : VmRequest → Vm
  | setClock clock => vm.setClock clock
  | startTracing target bufferSize flags =>
    (vm.profile (vm.profiler.startTracing target bufferSize flags)).2
  | stopTracing => (vm.profile (vm.profiler.stopTracing vm.key)).2
  | startEmulator => (vm.profile vm.profiler.startEmulator).2
  | stopEmulator => (vm.profile vm.profiler.stopEmulator).2
  | connectEmulator capacity =>
    let connected := vm.profiler.emulator.connect capacity
    { vm with profiler := { vm.profiler with emulator := connected.state } }.note connected.events
  | disconnectEmulator =>
    { vm with profiler := { vm.profiler with emulator := vm.profiler.emulator.disconnect } }
  | startInstructions => { vm with profiler := vm.profiler.startInstructions }
  | stopInstructions =>
    match vm.profiler.stopInstructions with
    | .ok profiler => { vm with profiler }
    | .error _ => vm
  | startAlloc => { vm with profiler := vm.profiler.startAlloc }
  | stopAlloc => { vm with profiler := vm.profiler.stopAlloc }
  | shutdown => vm.shutdown.2

/-- The request, with the names that a trace is to have. -/
def op (key : TraceKey) : VmRequest → ProfilerOp
  | setClock clock => .setClock clock
  | startTracing target bufferSize flags => .startTracing target bufferSize flags
  | stopTracing => .stopTracing key
  | startEmulator => .startEmulator
  | stopEmulator => .stopEmulator
  | connectEmulator capacity => .connectEmulator capacity
  | disconnectEmulator => .disconnectEmulator
  | startInstructions => .startInstructions
  | stopInstructions => .stopInstructions
  | startAlloc => .startAlloc
  | stopAlloc => .stopAlloc
  | shutdown => .shutdown key

/-- What the request means to a recorder, if it means anything to it. -/
def recorderOp? (key : TraceKey) : VmRequest → Option RecorderOp
  | setClock clock => some (.setClock clock)
  | startTracing target bufferSize flags => some (.start target bufferSize flags)
  | stopTracing | shutdown => some (.stop key)
  | _ => none

/-- A request is the profiler's business. -/
theorem perform_eq (vm : Vm) (r : VmRequest) :
    ∃ log, r.perform vm = { vm with profiler := (r.op vm.key).perform vm.profiler, log } := by
  cases r with
  | stopInstructions =>
      unfold perform op ProfilerOp.perform
      cases vm.profiler.stopInstructions <;> exact ⟨_, rfl⟩
  | _ => exact ⟨_, rfl⟩

end VmRequest

/-- A trace is begun by the recorder. -/
theorem Profiler.recorder_startTracing (p : Profiler) (target : Target) (bufferSize : Nat)
    (flags : TraceFlags) :
    (p.startTracing target bufferSize flags).state.recorder =
      (p.recorder.start target bufferSize flags).state := by
  cases hvalue : (p.recorder.start target bufferSize flags).value with
  | error e =>
      have hrefused : (p.recorder.start target bufferSize flags).state = p.recorder := by
        refine (Recorder.start_refused fun hok => ?_).2
        have hbegun : (p.recorder.start target bufferSize flags).value = .ok () :=
          Recorder.start_ok_iff.mpr hok
        rw [hvalue] at hbegun
        cases hbegun
      simp only [startTracing, hvalue, hrefused]
  | ok _ =>
      simp only [startTracing, hvalue]
      cases flags.countsAllocs <;> rfl

theorem Profiler.recorder_stopTracing (p : Profiler) (key : TraceKey) :
    (p.stopTracing key).state.recorder = (p.recorder.stop key).state := by
  rw [Recorder.state_stop]
  cases hs : p.recorder.session with
  | none => rw [(stopTracing_idle hs).1, ← hs]
  | some s => rw [stopTracing_open (by rw [hs]; rfl)]

/-- What a request does to the recorder. -/
theorem VmRequest.recorder_perform (r : VmRequest) (key : TraceKey) (p : Profiler) :
    ((r.op key).perform p).recorder =
      (r.recorderOp? key).elim p.recorder (RecorderOp.perform p.recorder) := by
  cases r with
  | startTracing target bufferSize flags => exact p.recorder_startTracing target bufferSize flags
  | stopTracing => exact p.recorder_stopTracing key
  | shutdown =>
      show (p.shutdown key).state.recorder = _
      rw [Profiler.state_shutdown]
      exact p.recorder_stopTracing key
  | stopEmulator =>
      obtain hsame | ⟨n, -, hstopped⟩ := p.stopEmulator_cases
      · exact congrArg Profiler.recorder hsame
      · show p.stopEmulator.state.recorder = p.recorder
        rw [hstopped]
  | stopInstructions =>
      obtain hsame | ⟨n, -, hstopped⟩ := p.stopInstructions_cases
      · exact congrArg Profiler.recorder hsame
      · show (ProfilerOp.perform p .stopInstructions).recorder = p.recorder
        rw [hstopped]
  | _ => rfl

/-! ### The log of what is reported -/

namespace EventLog

/-- Logs what a trace shows of the events of a thread, if a trace is open. -/
def observe (log : EventLog) (thread : ThreadId) (es : List Event) : EventLog :=
  (tracedCalls es).foldl (fun log c => log.append thread c.method c.action) log

theorem observe_cons (log : EventLog) (thread : ThreadId) (e : Event) (es : List Event) :
    log.observe thread (e :: es) = (log.observe thread [e]).observe thread es := by
  have hcalls : tracedCalls (e :: es) = tracedCalls [e] ++ tracedCalls es :=
    tracedCalls_append [e] es
  rw [observe, hcalls, List.foldl_append]
  rfl

/-- Being shown an event does to a recorder what it does to the log. -/
theorem observe_recorder (log : EventLog) (thread : ThreadId) (e : Event) :
    log.recorder.observe thread e = (log.observe thread [e]).recorder := by
  cases e with
  | method id action => exact log.add_recorder thread id action
  | passBegan pass => exact log.add_recorder thread pass.method .enter
  | passEnded pass => exact log.add_recorder thread pass.method .exit
  | instruction _ | alloc _ | notice _ => rfl

/-- The events of an open trace are the old ones and those that were shown. -/
theorem mem_events_observe {thread : ThreadId} {es : List Event} {log : EventLog} {l : OpenLog}
    (hl : l ∈ (log.observe thread es).opened) {e : LoggedEvent} (he : e ∈ l.events) :
    (∃ l' ∈ log.opened, e ∈ l'.events) ∨ ∃ c ∈ tracedCalls es, e.method = c.method := by
  unfold observe at hl
  -- only the calls among the events are logged, and the induction is on those
  generalize tracedCalls es = calls at hl
  induction calls generalizing log with
  | nil => exact .inl ⟨l, hl, he⟩
  | cons c calls ih =>
      rcases ih hl with ⟨l', hl', he'⟩ | ⟨c', hc', hmethod⟩
      · obtain ⟨before, hbefore, rfl⟩ := Option.map_eq_some_iff.mp hl'
        rcases List.mem_append.mp he' with he' | he'
        · exact .inl ⟨before, hbefore, he'⟩
        · obtain rfl := List.mem_singleton.mp he'
          exact .inr ⟨c, List.mem_cons_self, rfl⟩
      · exact .inr ⟨c', List.mem_cons_of_mem c hc', hmethod⟩

/-- A request adds no event. -/
theorem mem_events_perform {log : EventLog} {key : TraceKey} {r : VmRequest} {op : RecorderOp}
    (hop : r.recorderOp? key = some op) {l : OpenLog} (hl : l ∈ (log.perform op).opened)
    {e : LoggedEvent} (he : e ∈ l.events) : ∃ l' ∈ log.opened, e ∈ l'.events := by
  cases r with
  | setClock clock =>
      cases hop
      exact ⟨l, hl, he⟩
  | stopTracing | shutdown =>
      cases hop
      cases hl
  | startTracing target bufferSize flags =>
      cases hop
      simp only [perform, start] at hl
      split at hl
      · split at hl
        · cases hl
          cases he
        · exact ⟨l, hl, he⟩
      · exact ⟨l, hl, he⟩
  | _ => cases hop

end EventLog

/-- What the observers of a thread are shown reaches the recorder, and the counts stay right. -/
theorem Profiler.Accounted.recorder_foldl {p : Profiler} {log : EventLog} (h : p.Accounted)
    (hlog : p.recorder = log.recorder) (thread : ThreadId) (es : List Event) :
    (es.foldl (fun p e => p.observe thread e) p).Accounted ∧
      (es.foldl (fun p e => p.observe thread e) p).recorder =
        (log.observe thread es).recorder := by
  induction es generalizing p log with
  | nil => exact ⟨h, hlog⟩
  | cons e es ih =>
      rw [List.foldl_cons, h.observe thread e, EventLog.observe_cons]
      refine ih (h.hear thread e) ?_
      rw [(p.hear_keeps thread e).2.2.1, hlog, log.observe_recorder thread e]

/-! ### Histories -/

/-- Something that is asked of a machine. -/
inductive VmOp where
  | attach (name : String) (frameLimit : Nat)
  | detach (place : Nat)
  | load (m : ModuleDef)
  /-- Changes a thread's own allocation counters. -/
  | changeAlloc (place : Nat) (change : AllocCounters → AllocCounters)
  /-- Work on behalf of a thread. -/
  | work (place : Nat) (op : ThreadOp)
  /-- A request to the profiler. -/
  | ask (r : VmRequest)

/-- A machine, the modules that have been loaded into it, and the log of what it has reported. -/
structure LoggedVm where
  vm : Vm
  modules : Array Module := #[]
  log : EventLog := {}

namespace LoggedVm

/-- A new machine. -/
def create (heap : HeapSettings) (settings : ProfilerSettings) (log : Log) : LoggedVm :=
  { vm := .create heap settings log }

/-- The log after work on behalf of a thread. -/
def logWork (s : LoggedVm) (place : Nat) (op : ThreadOp) : EventLog :=
  match op.work? s.modules, s.vm.threads.get? place, s.vm.callStacks[place]? with
  | some work, some thread, some stack => s.log.observe thread.id (work ⟨stack, s.vm.store⟩).2
  | _, _, _ => s.log

/-- Does what is asked. -/
def perform (s : LoggedVm) : VmOp → LoggedVm
  | .attach name frameLimit => { s with vm := (s.vm.attach name frameLimit).2 }
  | .detach place => { s with vm := s.vm.detach place }
  | .load m =>
    let (loaded, vm) := s.vm.load m
    { s with vm, modules := s.modules.push loaded }
  | .changeAlloc place change => { s with vm := s.vm.changeAlloc place change }
  | .work place op => { s with vm := op.perform s.vm s.modules place, log := s.logWork place op }
  | .ask r =>
    { s with vm := r.perform s.vm, log := (r.recorderOp? s.vm.key).elim s.log s.log.perform }

/-- The machine after a history. -/
def after (s : LoggedVm) (ops : List VmOp) : LoggedVm := ops.foldl perform s

/-- There is no such thread or module. -/
def Lacks (s : LoggedVm) (place : Nat) (op : ThreadOp) : Prop :=
  op.work? s.modules = none ∨ s.vm.threads.get? place = none ∨ s.vm.callStacks[place]? = none

/-- Without the thread or the module nothing is done. -/
theorem Lacks.perform_eq {s : LoggedVm} {place : Nat} {op : ThreadOp} (h : s.Lacks place op) :
    s.perform (.work place op) = s := by
  have hlog : s.logWork place op = s.log := by
    unfold logWork
    split
    · next hwork hthread hstack => simp [Lacks, hwork, hthread, hstack] at h
    · rfl
  simp only [perform, ThreadOp.perform_absent h, hlog]

/-- Nothing is done if there is no such thread or module.  Otherwise the work is done on the
thread's stack and the store, and its observers and the log are shown what is reported of it. -/
theorem perform_work_cases (s : LoggedVm) (place : Nat) (op : ThreadOp) :
    s.Lacks place op ∨ ∃ work thread stack, op.work? s.modules = some work ∧
      s.vm.threads.get? place = some thread ∧ s.vm.callStacks[place]? = some stack ∧
        let done := work ⟨stack, s.vm.store⟩
        s.perform (.work place op) =
          { s with
            vm := s.vm.resume place done.1
              (done.2.foldl Observers.observe (s.vm.observers thread))
            log := s.log.observe thread.id done.2 } := by
  cases hwork : op.work? s.modules with
  | none => exact .inl (.inl hwork)
  | some work =>
      cases hthread : s.vm.threads.get? place with
      | none => exact .inl (.inr (.inl hthread))
      | some thread =>
          cases hstack : s.vm.callStacks[place]? with
          | none => exact .inl (.inr (.inr hstack))
          | some stack =>
              refine .inr ⟨work, thread, stack, rfl, rfl, rfl, ?_⟩
              simp only [perform, ThreadOp.perform_present hwork hthread hstack, logWork, hwork,
                hthread, hstack]

/-- **What every history keeps.** -/
structure Sound (s : LoggedVm) : Prop where
  accounted : s.vm.profiler.Accounted
  recorder : s.vm.profiler.recorder = s.log.recorder
  numbered : s.vm.methods.Numbered
  modules : ∀ m ∈ s.modules, m.Within s.vm.methods
  frames : ∀ stack ∈ s.vm.callStacks, stack.Within s.vm.methods
  /-- The events of an open trace are of methods that have been loaded, or of synthetic ones. -/
  events : ∀ l ∈ s.log.opened, ∀ e ∈ l.events, s.vm.methods.Names e.method

theorem sound_create (heap : HeapSettings) (settings : ProfilerSettings) (log : Log) :
    (create heap settings log).Sound where
  accounted := Profiler.accounted_new settings
  recorder := rfl
  numbered := MethodTable.numbered_empty
  modules := fun m h => absurd h (Array.not_mem_empty m)
  frames := fun s h => absurd h (Array.not_mem_empty s)
  events := fun _ h => nomatch h

namespace Sound

variable {s : LoggedVm}

theorem attach (h : s.Sound) (name : String) (frameLimit : Nat) :
    (s.perform (.attach name frameLimit)).Sound := by
  refine { h with frames := fun stack hstack => ?_ }
  rcases Array.mem_push.mp hstack with hstack | rfl
  · exact h.frames stack hstack
  · exact fun f hf => nomatch hf

theorem load (h : s.Sound) (m : ModuleDef) : (s.perform (.load m)).Sound := by
  have hmethods := s.vm.methods.methods_registerAll m.methods
  have hmore : ∀ method ∈ s.vm.methods.methods,
      method ∈ (s.vm.methods.registerAll m.methods).2.methods := by
    intro method hmethod
    rw [hmethods]
    exact Array.mem_append_left _ hmethod
  refine
    { accounted := h.accounted
      recorder := h.recorder
      numbered := h.numbered.registerAll m.methods
      modules := fun home hhome => ?_
      frames := fun stack hstack => (h.frames stack hstack).mono hmore
      events := fun l hl e he => (h.events l hl e he).mono hmore }
  rcases Array.mem_push.mp hhome with hhome | rfl
  · exact (h.modules home hhome).mono hmore
  · intro method hmethod
    show method ∈ (s.vm.methods.registerAll m.methods).2.methods
    rw [hmethods]
    exact Array.mem_append_right _ hmethod

theorem work (h : s.Sound) (place : Nat) (op : ThreadOp) : (s.perform (.work place op)).Sound := by
  obtain hlacks | ⟨work, thread, stack, hwork, -, hstack, hdone⟩ := s.perform_work_cases place op
  · rwa [hlacks.perform_eq]
  · have hloaded : stack.Within s.vm.methods := h.frames stack (Array.mem_of_getElem? hstack)
    obtain ⟨hleft, hcovers⟩ :=
      ThreadOp.within_work (m := ⟨stack, s.vm.store⟩) h.modules hwork hloaded
    generalize work ⟨stack, s.vm.store⟩ = done at hleft hcovers hdone
    -- the gate counts who listens, so the recorder is shown all that the log is shown
    obtain ⟨haccounted, hrecorder⟩ := h.accounted.recorder_foldl h.recorder thread.id done.2
    have hshown := Observers.profiler_foldl (s.vm.observers thread) done.2
    rw [hdone]
    refine
      { accounted := ?_
        recorder := ?_
        numbered := h.numbered
        modules := h.modules
        frames := fun other hother => ?_
        events := fun l hl e he => ?_ }
    · show (List.foldl _ _ _ : Observers).profiler.Accounted
      rw [hshown]
      exact haccounted
    · show (List.foldl _ _ _ : Observers).profiler.recorder = _
      rw [hshown]
      exact hrecorder
    · rcases Array.mem_or_eq_of_mem_setIfInBounds hother with hother | rfl
      · exact h.frames other hother
      · exact hleft
    · rcases EventLog.mem_events_observe hl he with ⟨l', hl', he'⟩ | ⟨c, hc, hmethod⟩
      · exact h.events l' hl' e he'
      · rw [hmethod]
        exact hcovers c hc

theorem ask (h : s.Sound) (r : VmRequest) : (s.perform (.ask r)).Sound := by
  obtain ⟨log, hvm⟩ := r.perform_eq s.vm
  have hafter : s.perform (.ask r) =
      { s with
        vm := { s.vm with profiler := (r.op s.vm.key).perform s.vm.profiler, log }
        log := (r.recorderOp? s.vm.key).elim s.log s.log.perform } := by
    simp only [LoggedVm.perform, hvm]
  rw [hafter]
  refine
    { accounted := h.accounted.perform (r.op s.vm.key)
      recorder := ?_
      numbered := h.numbered
      modules := h.modules
      frames := h.frames
      events := fun l hl e he => ?_ }
  · show ((r.op s.vm.key).perform s.vm.profiler).recorder = _
    rw [r.recorder_perform, h.recorder]
    cases r.recorderOp? s.vm.key with
    | none => rfl
    | some op => exact RecorderOp.perform_recorder s.log op
  · cases hop : r.recorderOp? s.vm.key with
    | none =>
        rw [hop] at hl
        exact h.events l hl e he
    | some op =>
        rw [hop] at hl
        obtain ⟨l', hl', he'⟩ := EventLog.mem_events_perform hop hl he
        exact h.events l' hl' e he'

/-- One step of a history. -/
theorem perform (h : s.Sound) (op : VmOp) : (s.perform op).Sound := by
  cases op with
  | attach name frameLimit => exact h.attach name frameLimit
  | detach place | changeAlloc place change => exact { h with }
  | load m => exact h.load m
  | work place op => exact h.work place op
  | ask r => exact h.ask r

/-- A whole history. -/
theorem after (h : s.Sound) (ops : List VmOp) : (s.after ops).Sound := by
  induction ops generalizing s with
  | nil => exact h
  | cons op ops ih => exact ih (h.perform op)

end Sound

end LoggedVm

end TracedMachine
