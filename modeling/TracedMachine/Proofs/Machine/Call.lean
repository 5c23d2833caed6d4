import TracedMachine.Demo
import TracedMachine.Vm

/-!
# Proofs — Machine — Call

Calls as a whole.  A call ends if some number of turns is enough for it, and it then *comes to* a
value, a machine and the events that it has reported on the way (`Machine.Calls`).  More turns
change nothing once a call has ended, so what it comes to is unique (`Machine.Calls.unique`).

An observer sees the events of a run and nothing of it depends on the observer: a run that is shown
to any observer is the run that lists its events, the list then shown to the observer
(`Machine.runFor_observe`).

A call on a thread of a virtual machine is a call on the thread's stack and the store, and what it
reports is shown to the profiler, the thread's counters and the log (`Vm.calls_iff`).
-/

namespace TracedMachine

namespace Machine

/-! ### Runs and their observers -/

/-- A run, and something made of what its observer has. -/
def Run.map {σ τ : Type} (f : σ → τ) : Run σ → Run τ
  | .ended value m s => .ended value m (f s)
  | .running m s => .running m (f s)

/-- The observer that lists the events. -/
def report (es : List Event) (e : Event) : List Event := es ++ [e]

theorem foldl_report (es new : List Event) : new.foldl report es = es ++ new := by
  induction new generalizing es with
  | nil => exact (List.append_nil es).symm
  | cons e new ih =>
      rw [List.foldl_cons, ih, report, List.append_assoc]
      rfl

section

variable {σ : Type} (observe : σ → Event → σ)

/-- **Observers only observe.**  A run shown to an observer is the run that lists its events, the
list then shown to the observer. -/
theorem runFor_observe (base turns : Nat) (m : Machine) (es : List Event) (s : σ) :
    runFor observe base turns m (es.foldl observe s) =
      (runFor report base turns m es).map fun es => es.foldl observe s := by
  induction turns generalizing m es with
  | zero => rfl
  | succ turns ih =>
      unfold runFor
      cases m.advance base with
      | goesOn m' new =>
          show runFor observe base turns m' (new.foldl observe (es.foldl observe s)) =
            (runFor report base turns m' (new.foldl report es)).map _
          rw [foldl_report, ← List.foldl_append, ih]
      | ended value m' new =>
          show Run.ended value m' (new.foldl observe (es.foldl observe s)) =
            Run.ended value m' ((new.foldl report es).foldl observe s)
          rw [foldl_report, List.foldl_append]

theorem invokeFor_observe (turns : Nat) (m : Machine) (home : Module) (index : Nat)
    (args : List Word) (s : σ) :
    m.invokeFor observe turns home index args s =
      (m.invokeFor report turns home index args []).map fun es => es.foldl observe s := by
  unfold invokeFor
  cases (do let frame ← firstFrame home index args; m.stack.room; return frame :
    Except Throwable Frame) with
  | error t => rfl
  | ok frame =>
      exact runFor_observe observe m.stack.depth turns _ [.method frame.method.id .enter] s

/-- Once a run has ended, more turns change nothing. -/
theorem runFor_more {base turns : Nat} {m m' : Machine} {s s' : σ}
    {value : Except Throwable Word} (h : runFor observe base turns m s = .ended value m' s')
    (more : Nat) : runFor observe base (turns + more) m s = .ended value m' s' := by
  induction turns generalizing m s with
  | zero => cases h
  | succ turns ih =>
      rw [Nat.succ_add]
      unfold runFor at h ⊢
      cases hturn : m.advance base with
      | goesOn next new =>
          rw [hturn] at h
          exact ih h
      | ended v next new =>
          rw [hturn] at h
          exact h

theorem invokeFor_more {turns : Nat} {m m' : Machine} {home : Module} {index : Nat}
    {args : List Word} {s s' : σ} {value : Except Throwable Word}
    (h : m.invokeFor observe turns home index args s = .ended value m' s') (more : Nat) :
    m.invokeFor observe (turns + more) home index args s = .ended value m' s' := by
  unfold invokeFor at h ⊢
  revert h
  cases (do let frame ← firstFrame home index args; m.stack.room; return frame :
    Except Throwable Frame) with
  | error t => exact id
  | ok frame => exact fun h => runFor_more observe h more

end

/-! ### What a call comes to -/

/-- A call ends: with a value, in a machine, and with events that it has reported. -/
def Calls (m : Machine) (home : Module) (index : Nat) (args : List Word)
    (value : Except Throwable Word) (m' : Machine) (es : List Event) : Prop :=
  ∃ turns, m.invokeFor report turns home index args [] = .ended value m' es

/-- A call ends. -/
def CallEnds (m : Machine) (home : Module) (index : Nat) (args : List Word) : Prop :=
  ∃ value m' es, m.Calls home index args value m' es

/-- What a call comes to is unique. -/
theorem Calls.unique {m m₁ m₂ : Machine} {home : Module} {index : Nat} {args : List Word}
    {value₁ value₂ : Except Throwable Word} {es₁ es₂ : List Event}
    (h₁ : m.Calls home index args value₁ m₁ es₁) (h₂ : m.Calls home index args value₂ m₂ es₂) :
    value₁ = value₂ ∧ m₁ = m₂ ∧ es₁ = es₂ := by
  obtain ⟨turns₁, h₁⟩ := h₁
  obtain ⟨turns₂, h₂⟩ := h₂
  -- both have ended after the sum of the turns
  have h₁' := invokeFor_more report h₁ turns₂
  have h₂' := invokeFor_more report h₂ turns₁
  rw [Nat.add_comm, h₁'] at h₂'
  cases h₂'
  exact ⟨rfl, rfl, rfl⟩

end Machine

/-! ### Calls on a thread -/

namespace Vm

/-- Who observes a thread of this machine. -/
def observers (vm : Vm) (thread : Thread) : Observers :=
  ⟨thread.id, vm.profiler, thread.alloc, vm.log⟩

/-- The machine after the work of a thread. -/
def resume (vm : Vm) (place : Nat) (m : Machine) (o : Observers) : Vm :=
  { store := m.store
    methods := vm.methods
    threads := vm.threads.modify place fun t => { t with alloc := o.own }
    callStacks := vm.callStacks.setIfInBounds place m.stack
    profiler := o.profiler
    log := o.log }

/-- A call on a thread ends, with a value and in a machine. -/
def Calls (vm : Vm) (place : Nat) (home : Module) (index : Nat) (args : List Word)
    (value : Except Throwable Word) (vm' : Vm) : Prop :=
  ∃ turns, vm.invoke turns place home index args = some (some value, vm')

/-- A call on a thread ends. -/
def CallEnds (vm : Vm) (place : Nat) (home : Module) (index : Nat) (args : List Word) : Prop :=
  ∃ value vm', vm.Calls place home index args value vm'

section

variable {vm vm' : Vm} {place : Nat} {home : Module} {index : Nat} {args : List Word}
  {value : Except Throwable Word}

theorem withThread_eq_none {α : Type} {work : Machine → Observers → α × Machine × Observers}
    (h : vm.threads.get? place = none ∨ vm.callStacks[place]? = none) :
    vm.withThread place work = none := by
  unfold withThread
  rcases h with h | h
  · rw [h]
  · rw [h]
    cases vm.threads.get? place <;> rfl

theorem withThread_eq {α : Type} {work : Machine → Observers → α × Machine × Observers}
    {thread : Thread} {stack : Stack} (hthread : vm.threads.get? place = some thread)
    (hstack : vm.callStacks[place]? = some stack) :
    vm.withThread place work =
      let done := work ⟨stack, vm.store⟩ (vm.observers thread)
      some (done.1, vm.resume place done.2.1 done.2.2) := by
  unfold withThread
  rw [hthread, hstack]
  rfl

/-- A thread is there with its stack, or there is nobody to work for. -/
theorem attached_or_absent (vm : Vm) (place : Nat) :
    (∃ thread stack, vm.threads.get? place = some thread ∧ vm.callStacks[place]? = some stack) ∨
      (vm.threads.get? place = none ∨ vm.callStacks[place]? = none) := by
  cases vm.threads.get? place with
  | none => exact .inr (.inl rfl)
  | some thread =>
      cases vm.callStacks[place]? with
      | none => exact .inr (.inr rfl)
      | some stack => exact .inl ⟨thread, stack, rfl, rfl⟩

/-- **A call on a thread** is a call on its stack and the store, and what the call has reported is
shown to those who observe the thread. -/
theorem calls_iff :
    vm.Calls place home index args value vm' ↔
      ∃ thread stack m es, vm.threads.get? place = some thread ∧
        vm.callStacks[place]? = some stack ∧
        Machine.Calls ⟨stack, vm.store⟩ home index args value m es ∧
        vm' = vm.resume place m (es.foldl Observers.observe (vm.observers thread)) := by
  cases hthread : vm.threads.get? place with
  | none =>
      have hnone : ∀ turns, vm.invoke turns place home index args = none :=
        fun turns => withThread_eq_none (.inl hthread)
      simp [Calls, hnone]
  | some thread =>
      cases hstack : vm.callStacks[place]? with
      | none =>
          have hnone : ∀ turns, vm.invoke turns place home index args = none :=
            fun turns => withThread_eq_none (.inr hstack)
          simp [Calls, hnone]
      | some stack =>
          constructor
          · rintro ⟨turns, h⟩
            rw [invoke, withThread_eq hthread hstack, Machine.invokeFor_observe] at h
            cases hrun : Machine.invokeFor Machine.report turns ⟨stack, vm.store⟩ home index args []
              with
            | ended v m es =>
                rw [hrun] at h
                cases h
                exact ⟨thread, stack, m, es, rfl, rfl, ⟨turns, hrun⟩, rfl⟩
            | running m es =>
                rw [hrun] at h
                cases h
          · rintro ⟨_, _, m, es, ⟨⟩, ⟨⟩, ⟨turns, hrun⟩, rfl⟩
            refine ⟨turns, ?_⟩
            rw [invoke, withThread_eq hthread hstack, Machine.invokeFor_observe, hrun]
            rfl

end

theorem Calls.unique {vm vm₁ vm₂ : Vm} {place : Nat} {home : Module} {index : Nat}
    {args : List Word} {value₁ value₂ : Except Throwable Word}
    (h₁ : vm.Calls place home index args value₁ vm₁)
    (h₂ : vm.Calls place home index args value₂ vm₂) : value₁ = value₂ ∧ vm₁ = vm₂ := by
  obtain ⟨thread, stack, m₁, es₁, hthread, hstack, hrun₁, rfl⟩ := calls_iff.mp h₁
  obtain ⟨thread', stack', m₂, es₂, hthread', hstack', hrun₂, rfl⟩ := calls_iff.mp h₂
  rw [hthread] at hthread'
  rw [hstack] at hstack'
  cases hthread'
  cases hstack'
  obtain ⟨rfl, rfl, rfl⟩ := hrun₁.unique hrun₂
  exact ⟨rfl, rfl⟩

end Vm

/-- The loaded workload. -/
def Demo.home : Module := (((Vm.create { limit := 100 } {} {}).attach "main" 8).2.load workload).1

namespace Sample

/-- A machine with one thread and the workload loaded. -/
def vm : Vm := (((Vm.create { limit := 100 } {} {}).attach "main" 8).2.load Demo.workload).2

/-- The machine with a trace that counts allocations. -/
def tracedVm : Vm :=
  { vm with profiler := (vm.profiler.startTracing (.writer {}) 59 .allocCounts).state }

end Sample

end TracedMachine
