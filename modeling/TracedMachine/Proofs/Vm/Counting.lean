import TracedMachine.Proofs.Machine.Memory
import TracedMachine.Proofs.Profiler.Counting
import TracedMachine.Proofs.Vm.History

/-!
# Proofs — Vm — Counting

The counters of a machine and its heap.  All that a history of a machine does to the heap is a
history of the heap: the operations that its threads ask for and those that their code asks for
(`LoggedVm.heapOps`).  What these report is shown to the counters of the process, whatever thread it
is for (`LoggedVm.Sound.shows_after`).

**Reconciliation** (`LoggedVm.counters_reconcile`).  From a start of the counters until something
else starts or stops them, objects allocated less objects freed is the change in the number of
objects, and likewise for bytes and for collections; and what is counted as failed are the requests
that were refused for lack of memory.  Threads come and go meanwhile, and the profiler may do
anything else.
-/

namespace TracedMachine

/-- The counters of a profiler are shown all events. -/
theorem Profiler.alloc_foldl (p : Profiler) (thread : ThreadId) (es : List Event) :
    (es.foldl (fun p e => p.observe thread e) p).alloc =
      es.foldl AllocCounters.observe p.alloc := by
  induction es generalizing p with
  | nil => rfl
  | cons e es ih => rw [List.foldl_cons, ih, alloc_observe, List.foldl_cons]

namespace ThreadOp

/-- What work for a thread asks of the heap, in order. -/
def heapOps (modules : Array Module) (m : Machine) : ThreadOp → List HeapOp
  | invoke turns number index args =>
    match modules[number]? with
    | none => []
    | some home => m.callHeapOps turns home index args
  | turn _ => m.heapOp?.toList
  | define .. | find _ | resolve .. => []
  | heap op => [op]

theorem heapOps_absent {modules : Array Module} {op : ThreadOp} (h : op.work? modules = none)
    (m : Machine) : op.heapOps modules m = [] := by
  cases op with
  | invoke turns number index args => simp only [heapOps, Option.map_eq_none_iff.mp h]
  | define | find | resolve => rfl
  | turn | heap => cases h

/-- **Work for a thread does to the heap what it asks of it.** -/
theorem does_work {modules : Array Module} {op : ThreadOp} {work : Machine → Machine × List Event}
    (hwork : op.work? modules = some work) (m : Machine) :
    m.store.heap.Does (op.heapOps modules m) (work m).1.store.heap (work m).2 := by
  cases op with
  | invoke turns number index args =>
      obtain ⟨home, hhome, rfl⟩ := Option.map_eq_some_iff.mp hwork
      have hrun := m.does_invokeFor turns home index args
      simp only [heapOps, hhome]
      cases hended : m.invokeFor Machine.report turns home index args [] with
      | ended value m' es =>
          rw [hended] at hrun
          exact hrun
      | running m' es =>
          rw [hended] at hrun
          exact hrun
  | turn base =>
      cases hwork
      have hturn := m.does_advance base
      dsimp only
      cases hadvance : m.advance base with
      | goesOn m' es | ended value m' es =>
          rw [hadvance] at hturn
          exact hturn
  | define descriptor fields =>
      cases hwork
      exact .silent (m.store.classes.allocEvents_define descriptor fields)
  | find descriptor =>
      cases hwork
      exact .silent (m.store.classes.allocEvents_findChars descriptor.toList)
  | resolve number index =>
      obtain ⟨home, -, rfl⟩ := Option.map_eq_some_iff.mp hwork
      dsimp only
      rw [Store.heap_resolveClass]
      exact .silent (m.store.allocEvents_resolveClass home index)
  | heap op =>
      cases hwork
      exact .one m.store.heap op

end ThreadOp

namespace LoggedVm

/-- What is asked of the heap when something is asked of the machine, in order. -/
def heapOpsOf (s : LoggedVm) : VmOp → List HeapOp
  | .work place op =>
    match s.vm.threads.get? place, s.vm.callStacks[place]? with
    | some _, some stack => op.heapOps s.modules ⟨stack, s.vm.store⟩
    | _, _ => []
  | .attach .. | .detach _ | .load _ | .changeAlloc .. | .ask _ => []

/-- What a history asks of the heap, in order. -/
def heapOps (s : LoggedVm) : List VmOp → List HeapOp
  | [] => []
  | op :: ops => s.heapOpsOf op ++ (s.perform op).heapOps ops

/-- The counters of the process are started or stopped, by the host or with a trace. -/
def DrivesCounters (s : LoggedVm) : VmOp → Prop
  | .ask r => ((r.op s.vm.key).counterCall? s.vm.profiler).isSome
  | .attach .. | .detach _ | .load _ | .changeAlloc .. | .work .. => False

/-- The counters of the process are started or stopped in a history. -/
def CountersDrivenIn (s : LoggedVm) : List VmOp → Prop
  | [] => False
  | op :: ops => s.DrivesCounters op ∨ (s.perform op).CountersDrivenIn ops

instance (s : LoggedVm) : ∀ op : VmOp, Decidable (s.DrivesCounters op)
  | .ask _ => inferInstanceAs (Decidable (_ = true))
  | .attach .. | .detach _ | .load _ | .changeAlloc .. | .work .. => .isFalse id

instance decidableCountersDrivenIn :
    ∀ (s : LoggedVm) (ops : List VmOp), Decidable (s.CountersDrivenIn ops)
  | _, [] => .isFalse id
  | s, op :: ops =>
    have := decidableCountersDrivenIn (s.perform op) ops
    inferInstanceAs (Decidable (_ ∨ _))

/-- Some events tell of memory what the operations do, and the counters of the process have been
shown them, unless they were started or stopped. -/
def Shows (s : LoggedVm) (ops : List HeapOp) (driven : Prop) (s' : LoggedVm) : Prop :=
  ∃ es, s.vm.store.heap.Does ops s'.vm.store.heap es ∧
    (¬ driven → s'.vm.profiler.alloc = es.foldl AllocCounters.observe s.vm.profiler.alloc)

/-- What leaves the heap and the counters. -/
theorem Shows.nothing {s s' : LoggedVm} {driven : Prop} (hheap : s'.vm.store.heap = s.vm.store.heap)
    (halloc : ¬ driven → s'.vm.profiler.alloc = s.vm.profiler.alloc) : s.Shows [] driven s' := by
  refine ⟨[], ?_, halloc⟩
  rw [hheap]
  exact .silent rfl

/-- Without the thread or the module nothing is asked of the heap. -/
theorem Lacks.heapOpsOf_eq {s : LoggedVm} {place : Nat} {op : ThreadOp} (h : s.Lacks place op) :
    s.heapOpsOf (.work place op) = [] := by
  unfold heapOpsOf
  dsimp only
  split
  · next hthread hstack =>
    have hmodule : op.work? s.modules = none := by simpa [Lacks, hthread, hstack] using h
    exact ThreadOp.heapOps_absent hmodule _
  · rfl

theorem shows_work (s : LoggedVm) (place : Nat) (op : ThreadOp) :
    s.Shows (s.heapOpsOf (.work place op)) False (s.perform (.work place op)) := by
  obtain hlacks | ⟨work, thread, stack, hwork, hthread, hstack, hdone⟩ :=
    s.perform_work_cases place op
  · rw [hlacks.heapOpsOf_eq, hlacks.perform_eq]
    exact .nothing rfl fun _ => rfl
  · have hops : s.heapOpsOf (.work place op) = op.heapOps s.modules ⟨stack, s.vm.store⟩ := by
      simp only [heapOpsOf, hthread, hstack]
    rw [hops, hdone]
    refine ⟨(work ⟨stack, s.vm.store⟩).2, ThreadOp.does_work hwork ⟨stack, s.vm.store⟩,
      fun _ => ?_⟩
    show (List.foldl _ _ _ : Observers).profiler.alloc = _
    rw [Observers.profiler_foldl, Profiler.alloc_foldl]
    rfl

/-- One step of a history. -/
theorem Sound.shows_perform {s : LoggedVm} (h : s.Sound) (op : VmOp) :
    s.Shows (s.heapOpsOf op) (s.DrivesCounters op) (s.perform op) := by
  cases op with
  | attach name frameLimit => exact .nothing rfl fun _ => rfl
  | detach place => exact .nothing rfl fun _ => rfl
  | load m => exact .nothing rfl fun _ => rfl
  | changeAlloc place change => exact .nothing rfl fun _ => rfl
  | work place op => exact s.shows_work place op
  | ask r =>
      obtain ⟨log, hvm⟩ := r.perform_eq s.vm
      have hafter : (s.perform (.ask r)).vm =
          { s.vm with profiler := (r.op s.vm.key).perform s.vm.profiler, log } := hvm
      refine .nothing (by rw [hafter]) fun hdriven => ?_
      rw [hafter]
      show ((r.op s.vm.key).perform s.vm.profiler).alloc = s.vm.profiler.alloc
      have hnone : (r.op s.vm.key).counterCall? s.vm.profiler = none :=
        Option.not_isSome_iff_eq_none.mp hdriven
      rw [h.accounted.alloc_perform, hnone]
      rfl

/-- A whole history. -/
theorem Sound.shows_after {s : LoggedVm} (h : s.Sound) (ops : List VmOp) :
    s.Shows (s.heapOps ops) (s.CountersDrivenIn ops) (s.after ops) := by
  induction ops generalizing s with
  | nil => exact .nothing rfl fun _ => rfl
  | cons op ops ih =>
      obtain ⟨es, hdoes, halloc⟩ := h.shows_perform op
      obtain ⟨more, hdoes', halloc'⟩ := ih (h.perform op)
      refine ⟨es ++ more, hdoes.trans hdoes', fun hdriven => ?_⟩
      obtain ⟨hnow, hlater⟩ := not_or.mp hdriven
      rw [List.foldl_append, ← halloc hnow]
      exact halloc' hlater

/-- The heap of a new machine is a well-formed one, after any history. -/
theorem wellFormed_heap (heap : HeapSettings) (settings : ProfilerSettings) (log : Log)
    (ops : List VmOp) : ((create heap settings log).after ops).vm.store.heap.WellFormed := by
  obtain ⟨es, hdoes, -⟩ := (sound_create heap settings log).shows_after ops
  rw [hdoes.after_eq]
  exact (Heap.WellFormed.empty heap).after _

/-- **Counters reconcile with the heap.**  From a start of the counters until something else starts
or stops them, what they count is the change of the heap in objects, bytes and collections, and the
requests that were refused for lack of memory. -/
theorem counters_reconcile (heap : HeapSettings) (settings : ProfilerSettings) (log : Log)
    (before ops : List VmOp) :
    let s := ((create heap settings log).after before).perform (.ask .startAlloc)
    let h := s.vm.store.heap
    let s' := s.after ops
    ¬ s.CountersDrivenIn ops →
      s'.vm.store.heap = h.after (s.heapOps ops) ∧ s'.vm.profiler.alloc.enabled = true ∧
        h.Reconciled s'.vm.store.heap (h.failures (s.heapOps ops)) s'.vm.profiler.alloc.stats := by
  intro s h s' hdriven
  have hsound : s.Sound := ((sound_create heap settings log).after before).perform _
  have hw : h.WellFormed := wellFormed_heap heap settings log before
  obtain ⟨es, ⟨hafter, hreported⟩, halloc⟩ := hsound.shows_after ops
  have hstarted : s.vm.profiler.alloc = .counting _ [] := AllocCounters.start_eq _
  have hcounted : s'.vm.profiler.alloc = _ := halloc hdriven
  rw [hstarted, AllocCounters.foldl_observe_counting, List.nil_append, hreported] at hcounted
  rw [hcounted]
  refine ⟨hafter, rfl, ?_⟩
  show h.Reconciled (s.after ops).vm.store.heap _ _
  rw [hafter]
  exact hw.reconciled (s.heapOps ops) _

end LoggedVm

/-- Code makes an array, the array is released, a request for 90 bytes collects it and fails all the
same, and one for 10 bytes succeeds; the profiler begins to count operations on the way. -/
def Sample.crowded : List VmOp :=
  let blob : Class := { descriptor := "LBlob;", kind := .instances 0, initialized := true }
  [.work 0 (.invoke 6 0 1 [1]), .work 0 (.heap (.release ⟨0, by decide⟩)),
    .work 0 (.heap (.allocate blob 0 90 false)), .ask .startInstructions,
    .work 0 (.heap (.allocate blob 0 10 true))]

/-- A machine with the workload loaded that counts allocations. -/
def Sample.countingVm : LoggedVm :=
  ((LoggedVm.create { limit := 100 } {} {}).after
    [.attach "main" 8, .load Demo.workload]).perform (.ask .startAlloc)

/-- An array, an object and a failed request are counted, with the header of each, and the one
object that is left is the difference. -/
theorem LoggedVm.counters_reconcile_crowded :
    ¬ Sample.countingVm.CountersDrivenIn Sample.crowded ∧
      Sample.countingVm.vm.store.heap.failures (Sample.countingVm.heapOps Sample.crowded) = [106] ∧
      (Sample.countingVm.after Sample.crowded).vm.profiler.alloc.stats.heap =
        { allocCount := 2, allocSize := 46, failedCount := 1, failedSize := 106
          freeCount := 1, freeSize := 20 } ∧
      Sample.countingVm.vm.store.heap.Reconciled
        (Sample.countingVm.after Sample.crowded).vm.store.heap
        (Sample.countingVm.vm.store.heap.failures (Sample.countingVm.heapOps Sample.crowded))
        (Sample.countingVm.after Sample.crowded).vm.profiler.alloc.stats := by
  have hquiet : ¬ Sample.countingVm.CountersDrivenIn Sample.crowded := by decide +kernel
  have hreconciled := counters_reconcile { limit := 100 } {} {}
    [.attach "main" 8, .load Demo.workload] Sample.crowded hquiet
  refine ⟨hquiet, ?_, ?_, hreconciled.2.2⟩
  · decide +kernel
  · decide +kernel

end TracedMachine
