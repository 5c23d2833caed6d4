import TracedMachine.Proofs.Machine.Call
import TracedMachine.Proofs.Machine.Passes

/-!
# Proofs — Machine — Bracketed

What a call reports is well bracketed.

**Bracketing** (`Vm.trace_is_bracketed`).  What a call reports leaves nothing open.  If the call
begins at all, it reports first that its method is entered and last that it is left, by a throwable
if the call throws; a call that does not begin reports nothing.  A session that records the call
holds the first of its events, so no record in it leaves a method that is not the innermost one.

The store's own work is bracketed in itself (`ShowsPasses.balanced`).  A turn of the loop opens and
closes what the stack says is being run (`Machine.Turn.Brackets`).  The method that the loop was
started for is kept apart from those that it calls: they are `own`, above it, and they are all
closed when it is left.
-/

namespace TracedMachine

/-! ### One turn -/

namespace Stack

theorem length_calls (s : Stack) : s.calls.length = s.depth := by
  rw [calls, List.length_map, s.depth_eq]

theorem calls_pop (s : Stack) : s.pop.calls = s.calls.tail := by
  rw [calls, calls, ← List.map_tail]
  rfl

/-- Where the innermost frame goes on does not matter to what is being run. -/
theorem calls_move (s : Stack) (pc : Frame → Nat) :
    (s.modifyTop fun f => { f with pc := pc f }).calls = s.calls :=
  s.calls_modifyTop fun _ => rfl

/-- The innermost frame is that of the innermost call. -/
theorem frames_of_calls {s : Stack} {id : MethodId} {rest : List MethodId}
    (h : s.calls = id :: rest) : ∃ f frames, s.frames = f :: frames ∧ f.method.id = id := by
  obtain ⟨f, frames, hframes, hid, -⟩ := List.map_eq_cons_iff.mp h
  exact ⟨f, frames, hframes, hid⟩

/-- A throwable that is caught leaves the calls above the one with the handler; one that is not
leaves all calls down to `id`. -/
theorem unwindTop_brackets {t : Throwable} {s : Stack} {id : MethodId}
    {own below : List MethodId} (h : s.calls = own ++ id :: below) :
    let u := unwindTop t (own.length + 1) s
    (u.caught = true → ∃ own', u.stack.calls = own' ++ id :: below ∧
      Bracketed own u.events own') ∧
    (u.caught = false → Closes own u.events ⟨id, .unwind⟩) := by
  induction own generalizing s with
  | nil =>
      obtain ⟨f, frames, hf, rfl⟩ := frames_of_calls h
      cases hhandler : f.method.handler? f.pc t.kind with
      | some handler =>
          rw [List.length_nil, unwindTop_caught hf hhandler]
          refine ⟨fun _ => ⟨[], ?_, rfl⟩, fun hcaught => nomatch hcaught⟩
          exact (s.calls_move fun _ => handler).trans h
      | none =>
          rw [List.length_nil, unwindTop_left hf hhandler]
          exact ⟨fun hcaught => (nomatch hcaught), fun _ => ⟨[], rfl, rfl⟩⟩
  | cons innermost own ih =>
      obtain ⟨f, frames, hf, rfl⟩ := frames_of_calls h
      cases hhandler : f.method.handler? f.pc t.kind with
      | some handler =>
          rw [List.length_cons, unwindTop_caught hf hhandler]
          refine ⟨fun _ => ⟨f.method.id :: own, ?_, rfl⟩, fun hcaught => nomatch hcaught⟩
          exact (s.calls_move fun _ => handler).trans h
      | none =>
          have hpop : s.pop.calls = own ++ id :: below := by
            rw [calls_pop, h]
            rfl
          have hfirst : Bracketed (f.method.id :: own) [.method f.method.id .unwind] own :=
            .leave _ Action.noConfusion own
          obtain ⟨hcaught, hleft⟩ := ih hpop
          rw [List.length_cons, unwindTop_left hf hhandler]
          constructor
          · intro hc
            obtain ⟨own', hcalls, hevents⟩ := hcaught hc
            exact ⟨own', hcalls, hfirst.append hevents⟩
          · intro hc
            exact hfirst.closes (hleft hc)

end Stack

namespace Machine

/-- How a call leaves its method. -/
def closing : Except Throwable Word → Action
  | .ok _ => .exit
  | .error _ => .unwind

/-- **A turn brackets calls.**  `own` are the calls above the method `id` before the turn.  If the
loop goes on, they have changed as the events say; if it has ended, they have been closed and `id`
was left last. -/
inductive Turn.Brackets (below : List MethodId) (id : MethodId) (own : List MethodId) :
    Turn → Prop where
  | goesOn {m : Machine} {es : List Event} {own' : List MethodId}
      (calls : m.stack.calls = own' ++ id :: below) (events : Bracketed own es own') :
      Brackets below id own (.goesOn m es)
  | ended {value : Except Throwable Word} {m : Machine} {es : List Event}
      (events : Closes own es ⟨id, closing value⟩) : Brackets below id own (.ended value m es)

section

variable {m : Machine} {below own : List MethodId} {id : MethodId}

theorem handle_brackets (h : m.stack.calls = own ++ id :: below) (t : Throwable)
    {es : List Event} (hes : Balanced es) :
    (m.handle below.length t es).Brackets below id own := by
  have hcount : m.stack.depth - below.length = own.length + 1 := by
    rw [← m.stack.length_calls, h, List.length_append, List.length_cons]
    omega
  obtain ⟨hcaught, hleft⟩ := Stack.unwindTop_brackets (t := t) h
  unfold handle Stack.unwind
  rw [hcount]
  dsimp only
  split
  · next hc =>
    obtain ⟨own', hcalls, hevents⟩ := hcaught hc
    exact .goesOn hcalls ((hes own).append hevents)
  · next hc => exact .ended ((hes own).closes (hleft (Bool.eq_false_iff.mpr hc)))

theorem follow_brackets (h : m.stack.calls = own ++ id :: below) {es : List Event}
    (hes : Balanced es) (control : Control) :
    (m.follow below.length es control).Brackets below id own := by
  cases control with
  | next width => exact .goesOn ((m.stack.calls_move fun f => f.pc + width).trans h) (hes own)
  | jump target => exact .goesOn ((m.stack.calls_move fun _ => target).trans h) (hes own)
  | call callee =>
      unfold follow
      cases m.stack.room with
      | ok _ =>
          have hentered : Bracketed own [.method callee.method.id .enter]
              (callee.method.id :: own) := rfl
          have hpushed : (m.stack.push callee).calls = callee.method.id :: own ++ id :: below :=
            congrArg (callee.method.id :: ·) h
          exact .goesOn hpushed ((hes own).append hentered)
      | error t => exact handle_brackets h t hes
  | leave value =>
      have hdepth : m.stack.pop.depth = own.length + below.length := by
        rw [← Stack.length_calls, Stack.calls_pop, h, List.length_tail, List.length_append,
          List.length_cons]
        omega
      unfold follow
      cases own with
      | nil =>
          -- the method that the loop was started for is left
          obtain ⟨f, frames, hf, rfl⟩ := Stack.frames_of_calls h
          have hended : m.stack.pop.depth ≤ below.length := by
            rw [hdepth, List.length_nil]
            omega
          have hlast : Closes [] [.method f.method.id .exit] ⟨f.method.id, .exit⟩ := ⟨[], rfl, rfl⟩
          simp only [hf, List.head?_cons, Option.map_some, Option.toList_some, if_pos hended]
          exact .ended ((hes []).closes hlast)
      | cons innermost own =>
          -- one of those that it has called is left
          obtain ⟨f, frames, hf, rfl⟩ := Stack.frames_of_calls h
          have hrunning : ¬ m.stack.pop.depth ≤ below.length := by
            rw [hdepth, List.length_cons]
            omega
          have hleft : Bracketed (f.method.id :: own) [.method f.method.id .exit] own :=
            .leave _ Action.noConfusion own
          simp only [hf, List.head?_cons, Option.map_some, Option.toList_some, if_neg hrunning]
          refine .goesOn ?_ ((hes _).append hleft)
          refine (m.stack.pop.calls_move fun f => f.pc + Opcode.invoke.width).trans ?_
          rw [Stack.calls_pop, h]
          rfl

/-- A turn opens and closes what the stack says is being run. -/
theorem advance_brackets (h : m.stack.calls = own ++ id :: below) :
    (m.advance below.length).Brackets below id own := by
  have hstep := m.calls_step.trans h
  unfold advance
  dsimp only
  cases m.step.value with
  | ok control => exact follow_brackets hstep m.showsPasses_step.balanced control
  | error t => exact handle_brackets hstep t m.showsPasses_step.balanced

/-! ### Whole calls -/

/-- A run that has ended has closed what was open, and the method that it was started for last. -/
theorem runFor_closes (h : m.stack.calls = own ++ id :: below) {turns : Nat}
    {before es : List Event} {value : Except Throwable Word} {m' : Machine}
    (hrun : runFor report below.length turns m before = .ended value m' es) :
    ∃ new, es = before ++ new ∧ Closes own new ⟨id, closing value⟩ := by
  induction turns generalizing m own before with
  | zero => cases hrun
  | succ turns ih =>
      have hturn := advance_brackets h
      unfold runFor at hrun
      generalize m.advance below.length = turn at hturn hrun
      cases hturn with
      | @goesOn next reported own' calls events =>
          obtain ⟨new, rfl, hcloses⟩ := ih calls hrun
          refine ⟨reported ++ new, ?_, events.closes hcloses⟩
          rw [foldl_report, List.append_assoc]
      | @ended v next reported events =>
          cases hrun
          exact ⟨reported, foldl_report before reported, events⟩

end

/-- A call begins: there is such a method, the arguments are as many as it has parameters and fit
its registers, and there is room for a frame. -/
structure Begins (m : Machine) (home : Module) (index : Nat) (args : List Word)
    (method : Method) : Prop where
  found : home.method? index = some method
  count : args.length = method.ins
  fit : args.length ≤ method.registers
  room : m.stack.depth < m.stack.limit

section

variable {m : Machine} {home : Module} {index : Nat} {args : List Word}

/-- Arguments are loaded into a new frame if and only if they fit its registers. -/
theorem loadArgs_enter (home : Module) (method : Method) (args : List Word) :
    (∃ r, (Frame.enter home method).registers.loadArgs args = .ok r) ↔
      args.length ≤ method.registers := by
  have hsize : (Frame.enter home method).registers.size = method.registers := Array.size_replicate
  rw [Registers.loadArgs, hsize]
  split <;> simp_all

/-- A call that begins enters its method. -/
theorem invokeFor_begun {method : Method} (h : m.Begins home index args method) (turns : Nat) :
    ∃ frame : Frame, frame.method = method ∧
      m.invokeFor report turns home index args [] =
        runFor report m.stack.depth turns { m with stack := m.stack.push frame }
          [.method method.id .enter] := by
  have hroom : m.stack.room = .ok () := if_neg (Nat.not_le.mpr h.room)
  obtain ⟨registers, hregisters⟩ := (loadArgs_enter home method args).mpr h.fit
  refine ⟨{ Frame.enter home method with registers }, rfl, ?_⟩
  unfold invokeFor firstFrame
  simp only [h.found, if_neg (not_not.mpr h.count), hregisters, hroom]
  rfl

/-- A call that does not begin has ended with a throwable. -/
theorem invokeFor_refused (h : ∀ method, ¬ m.Begins home index args method) (turns : Nat) :
    ∃ t, m.invokeFor report turns home index args [] = .ended (.error t) m [] := by
  unfold invokeFor firstFrame
  cases hfound : home.method? index with
  | none => exact ⟨_, rfl⟩
  | some method =>
      dsimp only
      by_cases hcount : args.length = method.ins
      · rw [if_neg (not_not.mpr hcount)]
        cases hloaded : (Frame.enter home method).registers.loadArgs args with
        | error t => exact ⟨t, rfl⟩
        | ok registers =>
            -- all is well except for the room
            have hfit := (loadArgs_enter home method args).mp ⟨registers, hloaded⟩
            have hfull : m.stack.limit ≤ m.stack.depth :=
              Nat.le_of_not_lt fun hroom => h method ⟨hfound, hcount, hfit, hroom⟩
            have hroom : m.stack.room = .error (.stackOverflow m.stack.depth) := if_pos hfull
            rw [hroom]
            exact ⟨_, rfl⟩
      · rw [if_pos hcount]
        exact ⟨_, rfl⟩

end

/-- **The trace of a call** that has ended with a value. -/
structure CallTrace (m : Machine) (home : Module) (index : Nat) (args : List Word)
    (value : Except Throwable Word) (calls : List MethodEvent) : Prop where
  /-- Only the innermost method is ever left, and nothing stays open. -/
  bracketed : openCalls [] calls = some []
  /-- A call that does not begin fails, and shows nothing. -/
  refused : (∀ method, ¬ m.Begins home index args method) → calls = [] ∧ ∃ t, value = .error t
  /-- A call that begins shows its method being entered first and left last. -/
  begun : ∀ method, m.Begins home index args method →
    ∃ inner, calls = ⟨method.id, .enter⟩ :: inner ++ [⟨method.id, closing value⟩]

namespace Calls

variable {m m' : Machine} {home : Module} {index : Nat} {args : List Word}
  {value : Except Throwable Word} {es : List Event}

/-- A call that begins shows its method, and what it calls in between. -/
theorem begun {method : Method} (hcall : m.Calls home index args value m' es)
    (h : m.Begins home index args method) :
    ∃ inner, tracedCalls es = ⟨method.id, .enter⟩ :: inner ++ [⟨method.id, closing value⟩] ∧
      openCalls [] inner = some [] := by
  obtain ⟨turns, hrun⟩ := hcall
  obtain ⟨frame, rfl, hbegun⟩ := invokeFor_begun h turns
  rw [hbegun, ← m.stack.length_calls] at hrun
  have hpushed : (m.stack.push frame).calls = [] ++ frame.method.id :: m.stack.calls := rfl
  obtain ⟨new, rfl, inner, hinner, hclosed⟩ := runFor_closes hpushed hrun
  refine ⟨inner, ?_, hclosed⟩
  rw [tracedCalls_append, hinner]
  rfl

theorem refused (hcall : m.Calls home index args value m' es)
    (h : ∀ method, ¬ m.Begins home index args method) : es = [] ∧ ∃ t, value = .error t := by
  obtain ⟨turns, hrun⟩ := hcall
  obtain ⟨t, hrefused⟩ := invokeFor_refused h turns
  rw [hrefused] at hrun
  cases hrun
  exact ⟨rfl, t, rfl⟩

/-- **What a call reports is well bracketed.** -/
theorem callTrace (hcall : m.Calls home index args value m' es) :
    m.CallTrace home index args value (tracedCalls es) where
  bracketed := by
    by_cases h : ∃ method, m.Begins home index args method
    · obtain ⟨method, hbegins⟩ := h
      obtain ⟨inner, htraced, hinner⟩ := hcall.begun hbegins
      have hclosing : closing value ≠ .enter := by cases value <;> exact Action.noConfusion
      -- what is called in between does not touch the method itself
      have hopen : openCalls [] (⟨method.id, .enter⟩ :: inner) = some [method.id] :=
        openCalls_under hinner [method.id]
      rw [htraced, openCalls_append, hopen]
      exact Bracketed.leave method.id hclosing []
    · obtain ⟨rfl, -⟩ := hcall.refused fun method hbegins => h ⟨method, hbegins⟩
      rfl
  refused := by
    intro h
    obtain ⟨rfl, hfailed⟩ := hcall.refused h
    exact ⟨rfl, hfailed⟩
  begun := by
    intro method hbegins
    obtain ⟨inner, htraced, -⟩ := hcall.begun hbegins
    exact ⟨inner, htraced⟩

end Calls

end Machine

/-! ### Traces of calls -/

/-- The profiler is shown all events. -/
theorem Observers.profiler_foldl (o : Observers) (es : List Event) :
    (es.foldl observe o).profiler =
      es.foldl (fun p e => p.observe o.thread e) o.profiler := by
  induction es generalizing o with
  | nil => rfl
  | cons e es ih => exact ih (o.observe e)

namespace Vm

/-- **A call that is traced.**  The call on a thread has reported the events `es`, and `recorded`
are the records of it in the session that is open. -/
structure CallTraced (vm : Vm) (place : Nat) (home : Module) (index : Nat) (args : List Word)
    (value : Except Throwable Word) (vm' : Vm) (session : Session) (thread : Thread) (stack : Stack)
    (es : List Event) (recorded : List Trace.Record) : Prop where
  attached : vm.threads.get? place = some thread
  callStack : vm.callStacks[place]? = some stack
  reported : ∃ m, Machine.Calls ⟨stack, vm.store⟩ home index args value m es ∧
    vm' = vm.resume place m (es.foldl Observers.observe (vm.observers thread))
  trace : Machine.CallTrace ⟨stack, vm.store⟩ home index args value (tracedCalls es)
  recording : vm'.profiler.recorder.session =
    some (session.recordAll vm.profiler.recorder.clock thread.id (tracedCalls es))
  held : session.Holds (session.recordAll vm.profiler.recorder.clock thread.id (tracedCalls es))
    thread.id (tracedCalls es) recorded

/-- **Traces are well bracketed.**  While a session is open, a call on a thread that ends has a well
bracketed trace, and the session holds as many of its events as it had room for. -/
theorem trace_is_bracketed {vm vm' : Vm} {place : Nat} {home : Module} {index : Nat}
    {args : List Word} {value : Except Throwable Word} {session : Session}
    (hcall : vm.Calls place home index args value vm') (hactive : vm.profiler.isActive)
    (hsession : vm.profiler.recorder.session = some session) :
    ∃ thread stack es recorded,
      vm.CallTraced place home index args value vm' session thread stack es recorded := by
  obtain ⟨thread, stack, m, es, hthread, hstack, hmachine, rfl⟩ := calls_iff.mp hcall
  have htrace := hmachine.callTrace
  obtain ⟨recorded, hrecorded⟩ :=
    session.holds_recordAll vm.profiler.recorder.clock thread.id htrace.bracketed
  have hobserved : (es.foldl Observers.observe (vm.observers thread)).profiler.recorder.session =
      some (session.recordAll vm.profiler.recorder.clock thread.id (tracedCalls es)) := by
    rw [Observers.profiler_foldl]
    exact Profiler.session_observe hactive hsession thread.id es
  exact ⟨thread, stack, es, recorded, hthread, hstack, ⟨m, hmachine, rfl⟩, htrace, hobserved,
    hrecorded⟩

end Vm

/-- The traced machine after `probe` has called `explode` and caught what it throws. -/
def Sample.probedVm : Vm :=
  (Sample.tracedVm.invoke 5 0 Demo.home 2 []).elim Sample.tracedVm Prod.snd

/-- A trace of two calls, one inside the other, in a session with room for three records. -/
theorem Vm.trace_is_bracketed_probe :
    Sample.tracedVm.Calls 0 Demo.home 2 [] (.ok 1) Sample.probedVm ∧
      Sample.tracedVm.profiler.isActive ∧
      Sample.probedVm.profiler.recorder.session.map (·.overflow) = some 1 ∧
      ∃ session thread stack es recorded,
        Sample.tracedVm.profiler.recorder.session = some session ∧
        Sample.tracedVm.CallTraced 0 Demo.home 2 [] (.ok 1) Sample.probedVm session thread stack es
          recorded := by
  have hcall : Sample.tracedVm.Calls 0 Demo.home 2 [] (.ok 1) Sample.probedVm := ⟨5, rfl⟩
  obtain ⟨thread, stack, es, recorded, htraced⟩ := trace_is_bracketed hcall rfl rfl
  exact ⟨hcall, rfl, rfl, _, thread, stack, es, recorded, rfl, htraced⟩

end TracedMachine
