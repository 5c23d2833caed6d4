import TracedMachine.Proofs.Vm.History
import TracedMachine.Proofs.Watched.Machine

/-!
# Proofs — Vm — Transparency

Two virtual machines that have in common what a thread runs on, and differ in everything that
observes: the gate, the trace, the stream, the counts of operations, the counters of the process and
of the thread, the log (`Vm.AgreesAt`).

Work for a thread is written twice.  `Vm.invoke` and `ThreadOp.perform` list the events of the work
and show them; here the work is told to the observers in passing (`Vm.work`), and the two come to
the same (`Vm.invokeWatched_eq`, `ThreadOp.perform_eq`).

**Transparency** (`Vm.profiling_is_transparent`).  A call that tells its observers in passing is
transparent, because every instruction, allocation, collection and preparation of a class is.  So on
both machines it takes the same turns to the same end.
-/

namespace TracedMachine

/-! ### Work in passing -/

namespace Vm

/-- Does work for a thread, with those who observe the thread watching. -/
def work {α : Type} (vm : Vm) (place : Nat) (x : Work Machine α) :
    Option (Except Throwable α × Vm) :=
  vm.withThread place fun m o =>
    match x.run ⟨m, o⟩ with
    | .ok a w => (.ok a, w.state, w.observers)
    | .error t w => (.error t, w.state, w.observers)

/-- What a call has ended with, if it has ended. -/
def callEnd : Except Throwable (Option Word) → Option (Except Throwable Word)
  | .ok value => value.map .ok
  | .error t => some (.error t)

/-- Calls a method on a thread, for up to `turns` turns of the machine's loop, with those who
observe the thread watching. -/
def invokeWatched (vm : Vm) (turns place : Nat) (home : Module) (index : Nat) (args : List Word) :
    Option (Option (Except Throwable Word) × Vm) :=
  (vm.work place (Work.invoke turns home index args)).map fun r => (callEnd r.1, r.2)

/-- **A call that is told in passing** is the call whose events are shown. -/
theorem invokeWatched_eq (vm : Vm) (turns place : Nat) (home : Module) (index : Nat)
    (args : List Word) :
    vm.invokeWatched turns place home index args = vm.invoke turns place home index args := by
  unfold invokeWatched work invoke
  obtain ⟨thread, stack, hthread, hstack⟩ | habsent := vm.attached_or_absent place
  · rw [withThread_eq hthread hstack, withThread_eq hthread hstack]
    simp only [Work.run_invoke]
    cases Machine.invokeFor Observers.observe turns ⟨stack, vm.store⟩ home index args
        (vm.observers thread) with
    | running m o => rfl
    | ended value m o => cases value <;> rfl
  · rw [withThread_eq_none habsent, withThread_eq_none habsent]
    rfl

end Vm

/-! ### Two machines -/

namespace Vm

/-- Two machines have in common what a thread runs on: the store, the methods and the thread's
stack.  The profilers, the threads' ids and counters, and the logs may differ. -/
structure AgreesAt (vm₁ : Vm) (place : Nat) (vm₂ : Vm) : Prop where
  store : vm₁.store = vm₂.store
  methods : vm₁.methods = vm₂.methods
  stack : vm₁.callStacks[place]? = vm₂.callStacks[place]?
  attached : (vm₁.threads.get? place).isSome = (vm₂.threads.get? place).isSome

/-- The same answer, and machines that have in common what a thread runs on. -/
def SameAt {α : Type} (place : Nat) (r₁ r₂ : α × Vm) : Prop :=
  r₁.1 = r₂.1 ∧ r₁.2.AgreesAt place r₂.2

namespace AgreesAt

variable {vm₁ vm₂ : Vm} {place : Nat}

theorem symm (h : vm₁.AgreesAt place vm₂) : vm₂.AgreesAt place vm₁ :=
  ⟨h.store.symm, h.methods.symm, h.stack.symm, h.attached.symm⟩

theorem resume (h : vm₁.AgreesAt place vm₂) (m : Machine) (o₁ o₂ : Observers) :
    (vm₁.resume place m o₁).AgreesAt place (vm₂.resume place m o₂) where
  store := rfl
  methods := h.methods
  stack := by
    have hsize : vm₁.callStacks.size ≤ place ↔ vm₂.callStacks.size ≤ place := by
      rw [← Array.getElem?_eq_none_iff, ← Array.getElem?_eq_none_iff, h.stack]
    simp only [Vm.resume, Array.getElem?_setIfInBounds_self, ← Nat.not_le, hsize]
  attached := by
    have hattached := h.attached
    simp only [ThreadList.get?] at hattached
    simp only [Vm.resume, ThreadList.get?, ThreadList.modify, Array.getElem?_modify, if_true,
      Option.isSome_map, hattached]

/-- **Transparent work** comes to the same on both machines. -/
theorem work {α : Type} {x : Work Machine α} (h : vm₁.AgreesAt place vm₂) (hx : x.Transparent) :
    Option.Rel (SameAt place) (vm₁.work place x) (vm₂.work place x) := by
  unfold Vm.work
  obtain ⟨thread₁, stack, hthread₁, hstack₁⟩ | habsent := vm₁.attached_or_absent place
  · have hattached := h.attached
    rw [hthread₁] at hattached
    obtain ⟨thread₂, hthread₂⟩ := Option.isSome_iff_exists.mp hattached.symm
    have hstack₂ : vm₂.callStacks[place]? = some stack := h.stack ▸ hstack₁
    rw [withThread_eq hthread₁ hstack₁, withThread_eq hthread₂ hstack₂, ← h.store]
    -- the stack and the store are the same, so the two runs of the work are related
    have hruns := hx ⟨stack, vm₁.store⟩ (vm₁.observers thread₁) (vm₂.observers thread₂)
    generalize x.run ⟨⟨stack, vm₁.store⟩, vm₁.observers thread₁⟩ = r₁,
      x.run ⟨⟨stack, vm₁.store⟩, vm₂.observers thread₂⟩ = r₂ at hruns ⊢
    cases hruns with
    | ok a m o₁ o₂ => exact .some ⟨rfl, h.resume m o₁ o₂⟩
    | error t m o₁ o₂ => exact .some ⟨rfl, h.resume m o₁ o₂⟩
  · have habsent₂ : vm₂.threads.get? place = none ∨ vm₂.callStacks[place]? = none := by
      rwa [← Option.isNone_iff_eq_none, ← Option.not_isSome, ← h.attached, ← h.stack,
        Option.not_isSome, Option.isNone_iff_eq_none]
    rw [withThread_eq_none habsent, withThread_eq_none habsent₂]
    exact .none

/-- A call comes to the same on both machines, after any number of turns. -/
theorem invokeWatched (h : vm₁.AgreesAt place vm₂) (turns : Nat) (home : Module) (index : Nat)
    (args : List Word) :
    Option.Rel (SameAt place) (vm₁.invokeWatched turns place home index args)
      (vm₂.invokeWatched turns place home index args) := by
  have hruns := h.work (Work.Transparent.invoke turns home index args)
  unfold Vm.invokeWatched
  generalize vm₁.work place (Work.invoke turns home index args) = r₁,
    vm₂.work place (Work.invoke turns home index args) = r₂ at hruns ⊢
  cases hruns with
  | none => exact .none
  | some hsame => exact .some ⟨congrArg callEnd hsame.1, hsame.2⟩

/-- A call that ends on one machine ends on the other, with the same value. -/
theorem calls {vm₁' : Vm} {home : Module} {index : Nat} {args : List Word}
    {value : Except Throwable Word} (h : vm₁.AgreesAt place vm₂)
    (hcall : vm₁.Calls place home index args value vm₁') :
    ∃ vm₂', vm₂.Calls place home index args value vm₂' ∧ vm₁'.AgreesAt place vm₂' := by
  obtain ⟨turns, hturns⟩ := hcall
  have hruns := h.invokeWatched turns home index args
  rw [invokeWatched_eq, invokeWatched_eq, hturns] at hruns
  generalize hother : vm₂.invoke turns place home index args = r₂ at hruns
  cases hruns with
  | @some _ r₂ hsame =>
      obtain ⟨value₂, vm₂'⟩ := r₂
      obtain ⟨hvalue, hagrees⟩ := hsame
      cases hvalue
      exact ⟨vm₂', ⟨turns, hother⟩, hagrees⟩

end AgreesAt

/-- **Profiling is transparent.**  Of two machines that have in common what a thread runs on, a call
on the thread that is told in passing comes to the same on both, after any number of turns; such a
call is the call that the machine makes.  So it ends on one machine if and only if it ends on the
other; and then it comes to the same value or throwable, and the machines have in common what the
thread runs on after it, too. -/
theorem profiling_is_transparent {vm₁ vm₂ : Vm} {place : Nat} (h : vm₁.AgreesAt place vm₂)
    (home : Module) (index : Nat) (args : List Word) :
    (∀ turns, Option.Rel (SameAt place) (vm₁.invokeWatched turns place home index args)
      (vm₂.invokeWatched turns place home index args)) ∧
    (∀ (vm : Vm) (turns : Nat), vm.invokeWatched turns place home index args =
      vm.invoke turns place home index args) ∧
    (vm₁.CallEnds place home index args ↔ vm₂.CallEnds place home index args) ∧
      ∀ value₁ vm₁' value₂ vm₂', vm₁.Calls place home index args value₁ vm₁' →
        vm₂.Calls place home index args value₂ vm₂' →
        value₁ = value₂ ∧ vm₁'.AgreesAt place vm₂' := by
  refine ⟨fun turns => h.invokeWatched turns home index args,
    fun vm turns => vm.invokeWatched_eq turns place home index args, ⟨?_, ?_⟩, ?_⟩
  · rintro ⟨value, vm₁', hcall⟩
    obtain ⟨vm₂', hcall₂, -⟩ := h.calls hcall
    exact ⟨value, vm₂', hcall₂⟩
  · rintro ⟨value, vm₂', hcall⟩
    obtain ⟨vm₁', hcall₁, -⟩ := h.symm.calls hcall
    exact ⟨value, vm₁', hcall₁⟩
  · intro value₁ vm₁' value₂ vm₂' h₁ h₂
    obtain ⟨vm, hcall, hagrees⟩ := h.calls h₁
    obtain ⟨rfl, rfl⟩ := hcall.unique h₂
    exact ⟨rfl, hagrees⟩

end Vm

/-- Making an array, with nothing turned on and with a trace that counts allocations. -/
theorem Vm.profiling_is_transparent_fill :
    Sample.vm.AgreesAt 0 Sample.tracedVm ∧
      Sample.vm.profiler.active = 0 ∧ Sample.tracedVm.profiler.active = 1 ∧
      (∃ vm', Sample.tracedVm.Calls 0 Demo.home 1 [1] (.ok 1) vm') ∧
      Option.Rel (SameAt 0) (Sample.vm.invokeWatched 6 0 Demo.home 1 [1])
        (Sample.tracedVm.invokeWatched 6 0 Demo.home 1 [1]) := by
  have hagrees : Sample.vm.AgreesAt 0 Sample.tracedVm := ⟨rfl, rfl, rfl, rfl⟩
  obtain ⟨vm₁, hcall₁⟩ : ∃ vm', Sample.vm.Calls 0 Demo.home 1 [1] (.ok 1) vm' := ⟨_, 6, rfl⟩
  obtain ⟨hlockstep, -, hends, hsame⟩ := profiling_is_transparent hagrees Demo.home 1 [1]
  obtain ⟨value, vm₂, hcall₂⟩ := hends.mp ⟨_, vm₁, hcall₁⟩
  obtain ⟨rfl, -⟩ := hsame _ _ _ _ hcall₁ hcall₂
  exact ⟨hagrees, rfl, rfl, ⟨vm₂, hcall₂⟩, hlockstep 6⟩

/-! ### Other work -/

namespace ThreadOp

open Work

/-- Work for a thread that is told in passing, whatever it answers or throws; none if there is no
such module. -/
def watched? (modules : Array Module) : ThreadOp → Option (Work Machine Unit)
  | invoke turns number index args =>
    modules[number]?.map fun home => (Work.invoke turns home index args).anyway
  | turn base => some (Work.advance base).anyway
  | define descriptor fields => some (onStore (onClasses (Work.define descriptor fields))).anyway
  | find descriptor => some (onStore (onClasses (findChars descriptor.toList))).anyway
  | resolve number index =>
    modules[number]?.map fun home => (onStore (resolveClass home index)).anyway
  | heap op => some (onHeap (heapOp op)).anyway

variable {modules : Array Module} {op : ThreadOp} {x : Work Machine Unit}

/-- **Work for a thread is transparent.** -/
theorem transparent_of_watched? (h : op.watched? modules = some x) : x.Transparent := by
  cases op with
  | invoke turns number index args =>
      obtain ⟨home, -, rfl⟩ := Option.map_eq_some_iff.mp h
      exact .anyway (.invoke turns home index args)
  | turn base =>
      cases h
      exact .anyway (.advance base)
  | define descriptor fields =>
      cases h
      exact .anyway (.onPart (.onClasses (.define descriptor fields)) _ _)
  | find descriptor =>
      cases h
      exact .anyway (.onPart (.onClasses (.findChars descriptor.toList)) _ _)
  | resolve number index =>
      obtain ⟨home, -, rfl⟩ := Option.map_eq_some_iff.mp h
      exact .anyway (.onPart (.resolveClass home index) _ _)
  | heap op =>
      cases h
      exact .anyway (.onPart (.heapOp op) _ _)

/-- There is work that is told in passing if and only if there is work that lists its events, and
it leaves and tells what the other leaves and lists. -/
theorem watched?_eq (modules : Array Module) (op : ThreadOp) :
    (op.watched? modules).map (fun x m o => x.run ⟨m, o⟩) =
      (op.work? modules).map fun work m o =>
        .ok () ⟨(work m).1, (work m).2.foldl Observers.observe o⟩ := by
  cases op with
  | invoke turns number index args =>
      simp only [watched?, work?, Option.map_map]
      refine Option.map_congr fun home _ => funext fun m => funext fun o => ?_
      simp only [Function.comp_apply, run_anyway, run_invoke]
      rw [Machine.invokeFor_observe]
      cases m.invokeFor Machine.report turns home index args [] with
      | running m' es => rfl
      | ended value m' es => cases value <;> rfl
  | turn base =>
      refine congrArg some (funext fun m => funext fun o => ?_)
      simp only [run_anyway, run_advance]
      cases m.advance base with
      | goesOn m' es => rfl
      | ended value m' es => cases value <;> rfl
  | define descriptor fields =>
      refine congrArg some (funext fun m => funext fun o => ?_)
      simp only [run_anyway, onStore, onClasses, run_onPart, run_define]
      rfl
  | find descriptor =>
      refine congrArg some (funext fun m => funext fun o => ?_)
      simp only [run_anyway, onStore, onClasses, run_onPart, run_findChars, Outcome.result,
        ClassTable.find]
      cases (m.store.classes.findChars descriptor.toList).value <;> rfl
  | resolve number index =>
      simp only [watched?, work?, Option.map_map]
      refine Option.map_congr fun home _ => funext fun m => funext fun o => ?_
      simp only [Function.comp_apply, run_anyway, onStore, run_onPart, run_resolveClass,
        Outcome.result]
      cases (m.store.resolveClass home index).value <;> rfl
  | heap op =>
      refine congrArg some (funext fun m => funext fun o => ?_)
      simp only [run_anyway, onHeap, run_onPart, run_heapOp]
      rfl

/-- **Work for a thread that is told in passing** is the work whose events are shown. -/
theorem perform_eq (vm : Vm) (modules : Array Module) (place : Nat) (op : ThreadOp) :
    op.perform vm modules place =
      ((op.watched? modules).bind (vm.work place)).elim vm Prod.snd := by
  have hsame := watched?_eq modules op
  cases hx : op.watched? modules with
  | none =>
      rw [hx] at hsame
      exact perform_absent (.inl (Option.map_eq_none_iff.mp hsame.symm))
  | some x =>
      rw [hx] at hsame
      obtain ⟨work, hwork, hruns⟩ := Option.map_eq_some_iff.mp hsame.symm
      rw [Option.bind_some, Vm.work]
      obtain ⟨thread, stack, hthread, hstack⟩ | habsent := vm.attached_or_absent place
      · have hrun := congrFun (congrFun hruns ⟨stack, vm.store⟩) (vm.observers thread)
        rw [perform_present hwork hthread hstack, Vm.withThread_eq hthread hstack]
        simp only [← hrun]
        rfl
      · rw [perform_absent (.inr habsent), Vm.withThread_eq_none habsent]
        rfl

end ThreadOp

/-- **Work for a thread** leaves what the thread runs on in common. -/
theorem Vm.AgreesAt.perform {vm₁ vm₂ : Vm} {place : Nat} (h : vm₁.AgreesAt place vm₂)
    (modules : Array Module) (op : ThreadOp) :
    (op.perform vm₁ modules place).AgreesAt place (op.perform vm₂ modules place) := by
  rw [ThreadOp.perform_eq, ThreadOp.perform_eq]
  cases hx : op.watched? modules with
  | none => exact h
  | some x =>
      have hruns := h.work (ThreadOp.transparent_of_watched? hx)
      rw [Option.bind_some, Option.bind_some]
      generalize vm₁.work place x = r₁, vm₂.work place x = r₂ at hruns ⊢
      cases hruns with
      | none => exact h
      | some hsame => exact hsame.2

end TracedMachine
