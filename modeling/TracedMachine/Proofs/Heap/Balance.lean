import TracedMachine.Proofs.AllocCounters
import TracedMachine.Proofs.Heap.WellFormed

/-!
# Proofs — Heap — Balance

What a heap reports of memory, against what becomes of it.  A heap does not count what it reports:
it lists events, and whoever listens counts them.  The events *balance* the change of the heap
(`Heap.Balanced`) if what was allocated and freed by them is the difference in objects and in bytes,
and if they name every collection.

Each function of a heap balances what it does (`WellFormed.balanced_remove`,
`WellFormed.balanced_collect`, `WellFormed.balanced_place`), so every operation does
(`WellFormed.balanced_perform`), and a history (`WellFormed.balanced_after`).  A reference that is
released twice, or to an object that is gone, is not reported (`WellFormed.balanced_reclaim`).  The
failures that are reported are the allocations that were refused for lack of memory
(`HeapOp.failed_perform`).
-/

namespace TracedMachine

/-- The bytes that an operation asks for and is refused for lack of memory. -/
def HeapOp.failure? (op : HeapOp) (h : Heap) : Option Nat :=
  match (op.perform h).value with
  | .reference (.error (.outOfMemory _)) => op.request?.map h.charge
  | _ => none

namespace Heap

/-- What is reported in a history. -/
def reported (h : Heap) : List HeapOp → List Event
  | [] => []
  | op :: ops => (op.perform h).events ++ (op.perform h).state.reported ops

/-- The bytes that a history asks for and is refused for lack of memory, request by request. -/
def failures (h : Heap) : List HeapOp → List Nat
  | [] => []
  | op :: ops => (op.failure? h).toList ++ (op.perform h).state.failures ops

/-- What is reported of memory accounts for what has become of a heap. -/
structure Balanced (h : Heap) (es : List AllocEvent) (h' : Heap) : Prop where
  objects : h'.objectCount + (es.filterMap AllocEvent.freed?).length =
    h.objectCount + (es.filterMap AllocEvent.allocated?).length
  bytes : h'.used + (es.filterMap AllocEvent.freed?).sum =
    h.used + (es.filterMap AllocEvent.allocated?).sum
  collections : h'.collections = h.collections + (es.count .collected).toUInt64

namespace Balanced

variable {h h' h'' : Heap} {es more : List AllocEvent}

/-- Nothing is reported where the objects, the bytes and the collections stay. -/
theorem quiet (hobjects : h'.objectCount = h.objectCount) (hbytes : h'.used = h.used)
    (hcollections : h'.collections = h.collections) : h.Balanced [] h' where
  objects := congrArg (· + 0) hobjects
  bytes := congrArg (· + 0) hbytes
  collections := by simp [hcollections]

theorem refl (h : Heap) : h.Balanced [] h := quiet rfl rfl rfl

theorem freed {size : Nat} (hobjects : h'.objectCount + 1 = h.objectCount)
    (hbytes : h'.used + size = h.used) (hcollections : h'.collections = h.collections) :
    h.Balanced [.freed size] h' where
  objects := hobjects
  bytes := hbytes
  collections := by simp [hcollections]

theorem allocated {size : Nat} (hobjects : h'.objectCount = h.objectCount + 1)
    (hbytes : h'.used = h.used + size) (hcollections : h'.collections = h.collections) :
    h.Balanced [.allocated size] h' where
  objects := hobjects
  bytes := hbytes
  collections := by simp [hcollections]

theorem failed (h : Heap) (size : Nat) : h.Balanced [.failed size] h where
  objects := rfl
  bytes := rfl
  collections := by simp

/-- What is told of memory outside the heap leaves the objects, the bytes and the collections. -/
theorem outside {e : AllocEvent} (he : e.outside?.isSome)
    (hobjects : h'.objectCount = h.objectCount) (hbytes : h'.used = h.used)
    (hcollections : h'.collections = h.collections) :
    h.Balanced [e] h' := by
  cases e with
  | externalAllocated | externalFailed | externalFreed =>
      exact ⟨hobjects, hbytes, by simp [hcollections]⟩
  | allocated | failed | freed | collected => cases he

theorem collected (hobjects : h'.objectCount = h.objectCount) (hbytes : h'.used = h.used)
    (hcollections : h'.collections = h.collections + 1) : h.Balanced [.collected] h' where
  objects := hobjects
  bytes := hbytes
  collections := hcollections

theorem trans (hfirst : h.Balanced es h') (hthen : h'.Balanced more h'') :
    h.Balanced (es ++ more) h'' := by
  obtain ⟨hobjects, hbytes, hcollections⟩ := hfirst
  obtain ⟨hobjects', hbytes', hcollections'⟩ := hthen
  constructor
  · rw [List.filterMap_append, List.filterMap_append, List.length_append, List.length_append]
    omega
  · rw [List.filterMap_append, List.filterMap_append, List.sum_append, List.sum_append]
    omega
  · rw [hcollections', hcollections, List.count_append, UInt64.add_assoc]
    exact congrArg (h.collections + ·) (UInt64.ofNat_add _ _).symm

end Balanced

/-! ### What balances -/

/-- A collection tells of memory what it removes, and that it ran. -/
theorem allocEvents_collect (h : Heap) :
    allocEvents h.collect.events =
      ({ h with garbage := #[] }.reclaim h.garbage.toList).1.map AllocEvent.freed ++
        [AllocEvent.collected] := by
  unfold collect allocEvents
  dsimp only
  generalize ({ h with garbage := #[] }.reclaim h.garbage.toList).1 = sizes
  have hfreed : (sizes.map fun n => Event.alloc (.freed n)).filterMap Event.alloc? =
      sizes.map AllocEvent.freed := by
    rw [List.filterMap_map]
    exact congrFun List.filterMap_eq_map sizes
  rw [List.cons_append, List.filterMap_cons_none rfl, List.filterMap_append, hfreed]
  rfl

namespace WellFormed

variable {h : Heap}

/-- A removal is one object freed. -/
theorem balanced_remove (hw : h.WellFormed) {h' : Heap} {r : ObjectRef} {o : HeapObject}
    (e : h.remove r = some (o, h')) : h.Balanced [.freed o.size] h' := by
  have hw' := hw.remove e
  obtain ⟨xs, ys, hbefore, hafter⟩ := live_remove e
  refine .freed ?_ ?_ (by rw [state_of_remove e])
  · rw [hw.counted.objectCount_eq, hw'.counted.objectCount_eq, hbefore, hafter]
    simp [Nat.add_assoc]
  · rw [hw.used_eq, hw'.used_eq, hbefore, hafter]
    simp only [List.map_append, List.map_cons, List.sum_append, List.sum_cons]
    omega

/-- A granted request is one object allocated. -/
theorem balanced_placed (hw : h.WellFormed) {q : AllocRequest} {r : ObjectRef}
    (e : h.slotFor? (h.charge q) = some r) :
    h.Balanced [.allocated (h.charge q)] (h.placed q r) := by
  have hw' : (h.placed q r).WellFormed := hw.place e q.cls q.slots q.track
  obtain ⟨xs, ys, hbefore, hafter⟩ := hw.live_place e q.cls q.slots q.track
  refine .allocated ?_ rfl rfl
  rw [hw.counted.objectCount_eq, hw'.counted.objectCount_eq, hbefore, placed, hafter]
  simp [Nat.add_assoc]

/-- Reclaiming reports the objects that it removes, each once. -/
theorem balanced_reclaim (hw : h.WellFormed) (rs : List ObjectRef) :
    h.Balanced ((h.reclaim rs).1.map AllocEvent.freed) (h.reclaim rs).2 := by
  induction rs generalizing h with
  | nil => exact .refl h
  | cons r rs ih =>
      unfold Heap.reclaim
      split
      · -- the object is gone already, and the reference is passed over
        exact ih hw
      · next o h' e => exact (hw.balanced_remove e).trans (ih (hw.remove e))

/-- A collection reports the objects that it removes, and itself. -/
theorem balanced_collect (hw : h.WellFormed) :
    h.Balanced (allocEvents h.collect.events) h.collect.state := by
  have hstart : h.Balanced [] { h with garbage := #[] } := .quiet rfl rfl rfl
  rw [allocEvents_collect]
  exact (hstart.trans (hw.emptied.balanced_reclaim h.garbage.toList)).trans
    (.collected rfl rfl rfl)

/-- **An operation balances what it does.** -/
theorem balanced_perform (hw : h.WellFormed) (op : HeapOp) :
    h.Balanced (allocEvents (op.perform h).events) (op.perform h).state := by
  have hstep := op.perform_step h
  generalize op.perform h = out at hstep
  cases hstep with
  | placed asked fits => exact hw.balanced_placed fits
  | replaced asked full fits =>
      have hplaced := hw.collect.balanced_placed fits
      rw [charge_collect] at hplaced
      rw [allocEvents_append]
      exact hw.balanced_collect.trans hplaced
  | exhausted =>
      rw [allocEvents_append]
      exact hw.balanced_collect.trans (.failed _ _)
  | noArray | noInstance | notFreed | notStored => exact .refl h
  | freed found => exact hw.balanced_remove found
  | released r => exact .quiet rfl rfl rfl
  | untracked r => exact .quiet rfl rfl rfl
  | collected => exact hw.balanced_collect
  | stored valid =>
      refine .quiet ?_ rfl rfl
      simp only [objectCount, Heap.store, Array.size_modify]
  | tookOutside | refusedOutside | gaveOutside => exact .outside rfl rfl rfl rfl

/-- A history balances what it does. -/
theorem balanced_after (hw : h.WellFormed) (ops : List HeapOp) :
    h.Balanced (allocEvents (h.reported ops)) (h.after ops) := by
  induction ops generalizing h with
  | nil => exact .refl h
  | cons op ops ih =>
      rw [reported, allocEvents_append]
      exact (hw.balanced_perform op).trans (ih (hw.perform op))

end WellFormed

end Heap

/-! ### Failures -/

/-- **What is reported as failed** is what was asked for and refused for lack of memory. -/
theorem HeapOp.failed_perform (op : HeapOp) (h : Heap) :
    (allocEvents (op.perform h).events).filterMap AllocEvent.failed? = (op.failure? h).toList := by
  have hcollect : (allocEvents h.collect.events).filterMap AllocEvent.failed? = [] := by
    rw [Heap.allocEvents_collect, List.filterMap_append, List.filterMap_map]
    exact List.append_eq_nil_iff.mpr ⟨List.filterMap_eq_nil_iff.mpr fun _ _ => rfl, rfl⟩
  unfold failure?
  have hstep := op.perform_step h
  generalize op.perform h = out at hstep
  cases hstep with
  | placed | noArray | noInstance | freed | notFreed | released | untracked | stored | notStored =>
      rfl
  | tookOutside | refusedOutside | gaveOutside => rfl
  | replaced asked full fits =>
      rw [allocEvents_append, List.filterMap_append, hcollect]
      rfl
  | exhausted asked full still =>
      rw [allocEvents_append, List.filterMap_append, hcollect]
      simp only [asked]
      rfl
  | collected => exact hcollect

namespace Heap

theorem failed_reported (h : Heap) (ops : List HeapOp) :
    (allocEvents (h.reported ops)).filterMap AllocEvent.failed? = h.failures ops := by
  induction ops generalizing h with
  | nil => rfl
  | cons op ops ih =>
      rw [reported, allocEvents_append, List.filterMap_append, op.failed_perform, ih, failures]


/-! ### Operations that something else comes to -/

/-- Operations lead from one heap to another, and tell of memory what the events do. -/
structure Does (h : Heap) (ops : List HeapOp) (h' : Heap) (es : List Event) : Prop where
  after_eq : h' = h.after ops
  reported_eq : allocEvents es = allocEvents (h.reported ops)

theorem reported_append (h : Heap) (xs ys : List HeapOp) :
    h.reported (xs ++ ys) = h.reported xs ++ (h.after xs).reported ys := by
  induction xs generalizing h with
  | nil => rfl
  | cons op xs ih =>
      show (op.perform h).events ++ (op.perform h).state.reported (xs ++ ys) = _
      rw [ih, ← List.append_assoc]
      rfl

namespace Does

variable {h h' h'' : Heap} {ops more : List HeapOp} {es es' : List Event}

/-- What tells nothing of memory. -/
theorem silent (hes : allocEvents es = []) : h.Does [] h es := ⟨rfl, hes⟩

theorem one (h : Heap) (op : HeapOp) : h.Does [op] (op.perform h).state (op.perform h).events :=
  ⟨rfl, congrArg allocEvents (List.append_nil _).symm⟩

/-- An event that tells nothing of memory does not matter. -/
theorem skip {e : Event} (he : e.alloc? = none) (hdoes : h.Does ops h' es) :
    h.Does ops h' (e :: es) := by
  refine ⟨hdoes.after_eq, ?_⟩
  rw [allocEvents, List.filterMap_cons_none he]
  exact hdoes.reported_eq

theorem trans (hfirst : h.Does ops h' es) (hthen : h'.Does more h'' es') :
    h.Does (ops ++ more) h'' (es ++ es') := by
  obtain ⟨rfl, hreported⟩ := hfirst
  obtain ⟨rfl, hreported'⟩ := hthen
  refine ⟨(h.after_append ops more).symm, ?_⟩
  rw [allocEvents_append, hreported, hreported', ← allocEvents_append, reported_append]

/-- Events at the end that tell nothing of memory do not matter. -/
theorem rest (hdoes : h.Does ops h' es) (hes : allocEvents es' = []) :
    h.Does ops h' (es ++ es') := by
  have hthen := hdoes.trans (silent hes)
  rwa [List.append_nil] at hthen

end Does

/-! ### The counters of a history -/

/-- **Counters reconcile with a heap**: what they have counted of objects, bytes and collections is
the change of the heap, and their failures are these requests. -/
structure Reconciled (h h' : Heap) (refused : List Nat) (counted : AllocStats) : Prop where
  objects : counted.heap.allocCount - counted.heap.freeCount =
    h'.objectCount.toUInt64 - h.objectCount.toUInt64
  bytes : counted.heap.allocSize - counted.heap.freeSize = h'.used.toUInt64 - h.used.toUInt64
  collections : counted.collections = h'.collections - h.collections
  failedCount : counted.heap.failedCount = refused.length.toUInt64
  failedSize : counted.heap.failedSize = refused.sum.toUInt64

/-- A difference that is right in numbers is right in words. -/
theorem toUInt64_sub_eq {a a' gone new : Nat} (e : a' + gone = a + new) :
    new.toUInt64 - gone.toUInt64 = a'.toUInt64 - a.toUInt64 := by
  have hwords : a'.toUInt64 + gone.toUInt64 = a.toUInt64 + new.toUInt64 := by
    have hofNat := congrArg UInt64.ofNat e
    rwa [UInt64.ofNat_add, UInt64.ofNat_add] at hofNat
  grind

theorem WellFormed.reconciled {h : Heap} (hw : h.WellFormed) (ops : List HeapOp)
    (trackExternal : Bool) :
    h.Reconciled (h.after ops) (h.failures ops)
      (.total trackExternal (allocEvents (h.reported ops))) := by
  obtain ⟨hobjects, hbytes, hcollections⟩ := hw.balanced_after ops
  have hfailed := h.failed_reported ops
  refine
    { objects := toUInt64_sub_eq hobjects
      bytes := toUInt64_sub_eq hbytes
      collections := ?_
      failedCount := ?_
      failedSize := ?_ }
  · rw [hcollections, UInt64.add_comm, UInt64.add_sub_cancel]
    rfl
  · rw [← hfailed]
    rfl
  · rw [← hfailed]
    rfl

end Heap

end TracedMachine
