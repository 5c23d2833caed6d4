import TracedMachine.Proofs.Vm.Counting

/-!
# Proofs — Vm — Shares

The counters of a process and those of its threads.  What happens to memory is shown to both: to the
counters of the process, and to those of the thread that it is done for.  Threads take turns as they
like (`ThreadOp.turn`): a call of one may stand still while others work.

**Shares** (`LoggedVm.shares_add_up`).  If the counters of the process and of all attached threads
begin together and nobody starts or stops them, the counters of each thread have counted what was
done for it, those of the process what was done for anyone, and the counts of the process are the
sums of those of the threads, as words of 64 bits: all six of the heap, the collections, and all six
of memory outside the heap, if that is counted.

What is reported is listed with the place of the thread that it is for (`LoggedVm.reported`).  One
step adds to the counters what it reports (`LoggedVm.Shares.perform`), and totals of a list are the
sums of the totals of its parts (`AllocStats.sum_share`).
-/

namespace TracedMachine

/-! ### Observers -/

/-- A thread's own counters are shown all events. -/
theorem Observers.own_foldl (o : Observers) (es : List Event) :
    (es.foldl observe o).own = es.foldl AllocCounters.observe o.own := by
  induction es generalizing o with
  | nil => rfl
  | cons e es ih => exact ih (o.observe e)

/-! ### Work -/

namespace VmOp

/-- The place of the thread that is worked for. -/
def place? : VmOp → Option Nat
  | work place _ => some place
  | attach .. | detach _ | load _ | changeAlloc .. | ask _ => none

/-- The counters of a thread may be started or stopped. -/
def changesOwn : VmOp → Bool
  | changeAlloc .. => true
  | attach .. | detach _ | load _ | work .. | ask _ => false

end VmOp

namespace LoggedVm

/-- What is reported of memory when something is asked, with the place of the thread that it is
for. -/
def reportedOf (s : LoggedVm) : VmOp → List (Nat × AllocEvent)
  | .work place op =>
    match op.work? s.modules, s.vm.threads.get? place, s.vm.callStacks[place]? with
    | some work, some _, some stack =>
      (allocEvents (work ⟨stack, s.vm.store⟩).2).map fun e => (place, e)
    | _, _, _ => []
  | .attach .. | .detach _ | .load _ | .changeAlloc .. | .ask _ => []

/-- What a history reports of memory, with the places of the threads that it is for. -/
def reported (s : LoggedVm) : List VmOp → List (Nat × AllocEvent)
  | [] => []
  | op :: ops => s.reportedOf op ++ (s.perform op).reported ops

/-- Without the thread or the module nothing is reported. -/
theorem Lacks.reportedOf_eq {s : LoggedVm} {place : Nat} {op : ThreadOp} (h : s.Lacks place op) :
    s.reportedOf (.work place op) = [] := by
  unfold reportedOf
  dsimp only
  split
  · next hwork hthread hstack => simp [Lacks, hwork, hthread, hstack] at h
  · rfl

/-- What is reported is for the thread that is worked for. -/
theorem place?_of_mem {s : LoggedVm} {op : VmOp} {x : Nat × AllocEvent}
    (hx : x ∈ s.reportedOf op) : op.place? = some x.1 := by
  cases op with
  | work place op =>
      unfold reportedOf at hx
      dsimp only at hx
      split at hx
      · obtain ⟨e, -, rfl⟩ := List.mem_map.mp hx
        rfl
      · cases hx
  | attach | detach | load | changeAlloc | ask => cases hx

/-- Work for threads at some places reports of these places only. -/
theorem mem_reported {s : LoggedVm} {places : List Nat} {ops : List VmOp}
    (h : ∀ op ∈ ops, ∀ place ∈ op.place?, place ∈ places) :
    ∀ x ∈ s.reported ops, x.1 ∈ places := by
  induction ops generalizing s with
  | nil => exact fun x hx => nomatch hx
  | cons op ops ih =>
      intro x hx
      rcases List.mem_append.mp hx with hx | hx
      · exact h op List.mem_cons_self _ (place?_of_mem hx)
      · exact ih (fun op' hop' => h op' (List.mem_cons_of_mem _ hop')) x hx

end LoggedVm

/-! ### Histories -/

namespace ThreadList

/-- Every thread of the other list is in this one, with the same counters. -/
def KeepsCounters (l' l : ThreadList) : Prop :=
  ∀ place c, (l.get? place).map (·.alloc) = some c → (l'.get? place).map (·.alloc) = some c

theorem KeepsCounters.refl (l : ThreadList) : l.KeepsCounters l := fun _ _ h => h

theorem keepsCounters_setState (l : ThreadList) (place : Nat) (state : ThreadState) :
    (l.setState place state).KeepsCounters l := by
  intro other c h
  simp only [setState, modify, get?, Array.getElem?_modify]
  split
  · rw [Option.map_map]
    exact h
  · exact h

theorem keepsCounters_attach (l : ThreadList) (name : String) (trackExternal : Bool) :
    ((l.attach name trackExternal).state.setState (l.attach name trackExternal).value
      .running).KeepsCounters l := by
  intro place c h
  refine keepsCounters_setState _ _ _ place c ?_
  obtain ⟨t, ht, -⟩ := Option.map_eq_some_iff.mp h
  have hlt : place < l.threads.size := (Array.getElem?_eq_some_iff.mp ht).1
  simp only [attach, get?, Array.getElem?_push, if_neg (Nat.ne_of_lt hlt)]
  exact h

/-- The places of the threads that are attached. -/
def attachedPlaces (l : ThreadList) : List Nat :=
  (List.range l.threads.size).filter fun place => (l.get? place).any (·.isAttached)

end ThreadList

namespace LoggedVm

/-- The counters of the process and those of all attached threads have just been started. -/
structure AllBegin (s : LoggedVm) (trackExternal : Bool) : Prop where
  process : s.vm.profiler.alloc = (AllocCounters.new trackExternal).start
  own : ∀ place ∈ s.vm.threads.attachedPlaces,
    (s.vm.threads.get? place).map (·.alloc) = some (AllocCounters.new trackExternal).start

/-- The counters of the process have counted all of some events, and those of each thread what is
for it. -/
structure Shares (s : LoggedVm) (trackExternal : Bool) (places : List Nat)
    (es : List (Nat × AllocEvent)) : Prop where
  process : s.vm.profiler.alloc = .counting trackExternal (es.map Prod.snd)
  own : ∀ place ∈ places, (s.vm.threads.get? place).map (·.alloc) =
    some (.counting trackExternal (share place es))

section

variable {s : LoggedVm} {trackExternal : Bool} {places : List Nat} {es : List (Nat × AllocEvent)}

/-- What leaves all counters. -/
theorem Shares.of_kept (h : s.Shares trackExternal places es) {s' : LoggedVm}
    (halloc : s'.vm.profiler.alloc = s.vm.profiler.alloc)
    (hthreads : s'.vm.threads.KeepsCounters s.vm.threads) :
    s'.Shares trackExternal places es where
  process := halloc.trans h.process
  own place hplace := hthreads place _ (h.own place hplace)

/-- Work for a thread is shown to its counters and to those of the process. -/
theorem Shares.work (h : s.Shares trackExternal places es) (place : Nat) (op : ThreadOp) :
    (s.perform (.work place op)).Shares trackExternal places
      (es ++ s.reportedOf (.work place op)) := by
  obtain hlacks | ⟨work, thread, stack, hwork, hthread, hstack, hdone⟩ :=
    s.perform_work_cases place op
  · rwa [hlacks.perform_eq, hlacks.reportedOf_eq, List.append_nil]
  · have hreported : s.reportedOf (.work place op) =
        (allocEvents (work ⟨stack, s.vm.store⟩).2).map fun e => (place, e) := by
      simp only [reportedOf, hwork, hthread, hstack]
    generalize work ⟨stack, s.vm.store⟩ = done at hreported hdone
    refine ⟨?_, fun other hother => ?_⟩
    · rw [hdone]
      show (List.foldl _ _ _ : Observers).profiler.alloc = _
      rw [Observers.profiler_foldl, Profiler.alloc_foldl]
      show done.2.foldl _ s.vm.profiler.alloc = _
      rw [h.process, AllocCounters.foldl_observe_counting, hreported, List.map_append,
        List.map_map]
      exact congrArg (fun own => AllocCounters.counting _ (_ ++ own)) (List.map_id _).symm
    · have hcounts := h.own other hother
      rw [hdone, share_append, hreported, share_map]
      simp only [Vm.resume, ThreadList.modify, ThreadList.get?, Array.getElem?_modify]
      by_cases hself : place = other
      · subst hself
        rw [hthread] at hcounts
        rw [if_pos rfl, if_pos rfl, ← AllocCounters.foldl_observe_counting,
          ← Option.some.inj hcounts]
        refine (congrArg (Option.map _) (congrArg (Option.map _) hthread)).trans ?_
        exact congrArg some (Observers.own_foldl _ _)
      · rw [if_neg hself, if_neg (Ne.symm hself), List.append_nil]
        exact hcounts

/-- A request leaves all counters, unless it starts or stops those of the process. -/
theorem Shares.ask (h : s.Shares trackExternal places es) (haccounted : s.vm.profiler.Accounted)
    {r : VmRequest} (hdriven : ¬ s.DrivesCounters (.ask r)) :
    (s.perform (.ask r)).Shares trackExternal places es := by
  obtain ⟨log, hvm⟩ := r.perform_eq s.vm
  have hafter : (s.perform (.ask r)).vm =
      { s.vm with profiler := (r.op s.vm.key).perform s.vm.profiler, log } := hvm
  have hnone : (r.op s.vm.key).counterCall? s.vm.profiler = none :=
    Option.not_isSome_iff_eq_none.mp hdriven
  refine h.of_kept ?_ ?_
  · rw [hafter]
    show ((r.op s.vm.key).perform s.vm.profiler).alloc = _
    rw [haccounted.alloc_perform, hnone]
    rfl
  · rw [hafter]
    exact .refl _

/-- One step of a history. -/
theorem Shares.perform (h : s.Shares trackExternal places es)
    (haccounted : s.vm.profiler.Accounted) {op : VmOp} (hdriven : ¬ s.DrivesCounters op)
    (hown : op.changesOwn = false) :
    (s.perform op).Shares trackExternal places (es ++ s.reportedOf op) := by
  cases op with
  | work place op => exact h.work place op
  | changeAlloc place change => cases hown
  | attach name frameLimit =>
      rw [reportedOf, List.append_nil]
      exact h.of_kept rfl (s.vm.threads.keepsCounters_attach name _)
  | detach place =>
      rw [reportedOf, List.append_nil]
      exact h.of_kept rfl (s.vm.threads.keepsCounters_setState place .dead)
  | load m =>
      rw [reportedOf, List.append_nil]
      exact h.of_kept rfl (.refl _)
  | ask r =>
      rw [reportedOf, List.append_nil]
      exact h.ask haccounted hdriven

/-- A whole history. -/
theorem Shares.after (h : s.Shares trackExternal places es) (hsound : s.Sound) {ops : List VmOp}
    (hdriven : ¬ s.CountersDrivenIn ops) (hown : ∀ op ∈ ops, op.changesOwn = false) :
    (s.after ops).Shares trackExternal places (es ++ s.reported ops) := by
  induction ops generalizing s es with
  | nil => rwa [reported, List.append_nil]
  | cons op ops ih =>
      obtain ⟨hnow, hlater⟩ := not_or.mp hdriven
      have hstep := h.perform hsound.accounted hnow (hown op List.mem_cons_self)
      have hrest := ih hstep (hsound.perform op) hlater
        fun op' hop' => hown op' (List.mem_cons_of_mem _ hop')
      rw [List.append_assoc] at hrest
      exact hrest

theorem AllBegin.shares (h : s.AllBegin trackExternal) :
    s.Shares trackExternal s.vm.threads.attachedPlaces [] := by
  have hstarted : (AllocCounters.new trackExternal).start = .counting trackExternal [] := by
    rw [AllocCounters.start_eq, AllocCounters.tracksExternal_new]
  constructor
  · rw [h.process, hstarted]
    rfl
  · intro place hplace
    rw [h.own place hplace, hstarted]
    rfl

end

/-- **Shares add up.**  If the counters of the process and of all attached threads begin together,
nobody starts or stops them, and work is done for these threads only, then the counters of each
thread have counted what was done for it, those of the process what was done for anyone, and each
count of the process is the sum of the threads' counts. -/
theorem shares_add_up (heap : HeapSettings) (settings : ProfilerSettings) (log : Log)
    (before ops : List VmOp) (trackExternal : Bool) :
    let s := (create heap settings log).after before
    let places := s.vm.threads.attachedPlaces
    let s' := s.after ops
    s.AllBegin trackExternal → ¬ s.CountersDrivenIn ops →
      (∀ op ∈ ops, op.changesOwn = false ∧ ∀ place ∈ op.place?, place ∈ places) →
        s'.vm.profiler.alloc = .counting trackExternal ((s.reported ops).map Prod.snd) ∧
          (∀ place ∈ places, (s'.vm.threads.get? place).map (·.alloc) =
            some (.counting trackExternal (share place (s.reported ops)))) ∧
          s'.vm.profiler.alloc.stats = .sum trackExternal
            (places.filterMap fun place => (s'.vm.threads.get? place).map (·.alloc.stats)) := by
  intro s places s' hbegin hdriven hops
  have hsound : s.Sound := (sound_create heap settings log).after before
  have hshares : s'.Shares trackExternal places (s.reported ops) :=
    hbegin.shares.after hsound hdriven fun op hop => (hops op hop).1
  refine ⟨hshares.process, hshares.own, ?_⟩
  have hstats : places.filterMap (fun place => (s'.vm.threads.get? place).map (·.alloc.stats)) =
      places.map fun place => .total trackExternal (share place (s.reported ops)) := by
    rw [← List.filterMap_eq_map]
    refine List.filterMap_congr fun place hplace => ?_
    have hstats := congrArg (Option.map AllocCounters.stats) (hshares.own place hplace)
    rwa [Option.map_map] at hstats
  have hnodup : places.Nodup := List.nodup_range.filter _
  have hplaces : ∀ x ∈ s.reported ops, x.1 ∈ places :=
    mem_reported fun op hop => (hops op hop).2
  rw [hshares.process, hstats, AllocStats.sum_share hnodup trackExternal hplaces]
  rfl

end LoggedVm

/-- Two threads are attached, and all counters begin.  Memory outside the heap has come before. -/
def Sample.beginning : List VmOp :=
  [.attach "main" 8, .attach "worker" 8, .load Demo.workload, .work 0 (.heap (.externalAlloc 5)),
    .ask .startAlloc, .changeAlloc 1 AllocCounters.start, .changeAlloc 0 AllocCounters.start]

/-- A machine with two threads that counts allocations for each. -/
def Sample.twoThreads : LoggedVm := (LoggedVm.create { limit := 100 } {} {}).after Sample.beginning

/-- The first thread makes an array in its first turn, and lets it go after its second.  Between
these turns the other thread takes memory outside the heap, which the first will free.  Then it asks
for too much, which collects the array and fails, and is detached; a third thread is attached that
does nothing. -/
def Sample.interleaved : List VmOp :=
  let blob : Class := { descriptor := "LBlob;", kind := .instances 0, initialized := true }
  [.work 0 (.invoke 1 0 1 [1]), .work 1 (.heap (.externalAlloc 30)), .work 0 (.turn 0),
    .work 0 (.heap (.release ⟨0, slotLimit_pos⟩)), .work 1 (.heap (.allocate blob 0 90 false)),
    .detach 1, .work 0 (.heap (.externalFree 30)), .attach "late" 8]

/-- The array counts for the thread that made it, and its end for the one that collected. -/
theorem LoggedVm.shares_add_up_interleaved :
    Sample.twoThreads.AllBegin true ∧ ¬ Sample.twoThreads.CountersDrivenIn Sample.interleaved ∧
      (∀ op ∈ Sample.interleaved, op.changesOwn = false ∧
        ∀ place ∈ op.place?, place ∈ Sample.twoThreads.vm.threads.attachedPlaces) ∧
      Sample.twoThreads.reported Sample.interleaved =
        [(0, .allocated 20), (1, .externalAllocated 30), (1, .freed 20), (1, .collected),
          (1, .failed 106), (0, .externalFreed 30)] ∧
      (Sample.twoThreads.after Sample.interleaved).vm.profiler.alloc.stats = .sum true
        (Sample.twoThreads.vm.threads.attachedPlaces.filterMap fun place =>
          ((Sample.twoThreads.after Sample.interleaved).vm.threads.get? place).map
            (·.alloc.stats)) := by
  have hbegin : Sample.twoThreads.AllBegin true := ⟨by decide +kernel, by decide +kernel⟩
  have hquiet : ¬ Sample.twoThreads.CountersDrivenIn Sample.interleaved := by decide +kernel
  have hops : ∀ op ∈ Sample.interleaved, op.changesOwn = false ∧
      ∀ place ∈ op.place?, place ∈ Sample.twoThreads.vm.threads.attachedPlaces := by decide +kernel
  have hshares := shares_add_up { limit := 100 } {} {} Sample.beginning Sample.interleaved true
    hbegin hquiet hops
  refine ⟨hbegin, hquiet, hops, ?_, hshares.2.2⟩
  decide +kernel

end TracedMachine
