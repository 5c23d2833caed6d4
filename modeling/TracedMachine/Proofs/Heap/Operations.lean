import TracedMachine.Heap
import Mathlib.Logic.Basic

/-!
# Proofs — Heap — Operations

Histories of a heap.  A `HeapOp` is one request to a heap, with any reference as its argument;
`HeapOp.perform` does it and `Heap.after` does a list of them.

Two kinds of lemma follow.  The first say what each function does to the *view* of a heap, the
object that each reference names (`object?_remove`, `object?_collect`, `object?_place`,
`object?_store`).  The second is one inversion, `HeapOp.perform_step`: whatever is asked of a heap
comes to one of the cases of `HeapStep`, of which three are those of an allocation.  What a
history keeps is proved on these cases and not on the functions.
-/

namespace TracedMachine

theorem slotLimit_pos : 0 < slotLimit := by decide

theorem one_lt_slotLimit : 1 < slotLimit := by decide

/-- Something that is asked of a heap. -/
inductive HeapOp where
  | allocate (cls : Class) (slots size : Nat) (track : Bool)
  | allocateArray (cls : Class) (length : Nat) (track : Bool)
  | allocateInstance (cls : Class) (track : Bool)
  | free (r : ObjectRef)
  | release (r : ObjectRef)
  | releaseTracked (r : ObjectRef)
  | collect
  | put (r : ObjectRef) (index : Int32) (w : Word)
  /-- Accounts for memory allocated outside the heap. -/
  | externalAlloc (bytes : Nat)
  /-- Accounts for memory freed outside the heap. -/
  | externalFree (bytes : Nat)
deriving DecidableEq

/-- What a heap answers. -/
inductive HeapAnswer where
  /-- To an allocation. -/
  | reference (result : Except Throwable ObjectRef)
  /-- To a request to free an object: the bytes it took. -/
  | freed (result : Except Throwable Nat)
  /-- To a collection: the bytes reclaimed. -/
  | reclaimed (bytes : Nat)
  /-- To a request to track an object no more: whether it was tracked. -/
  | untracked (was : Bool)
  /-- To a request to store an element. -/
  | stored (result : Except Throwable Unit)
  /-- To a request for memory outside the heap: whether it fits. -/
  | outside (fits : Bool)
  /-- To a release, or to memory freed outside the heap. -/
  | done

/-- The reference of the object that was allocated, if one was. -/
def HeapAnswer.reference? : HeapAnswer → Option ObjectRef
  | reference (.ok r) => some r
  | _ => none

/-- An object to be allocated, its bytes without the header. -/
structure AllocRequest where
  cls : Class
  slots : Nat
  size : Nat
  track : Bool

namespace HeapOp

/-- Does an operation. -/
def perform (op : HeapOp) (h : Heap) : Outcome Heap Event HeapAnswer :=
  match op with
  | allocate cls slots size track =>
    let done := h.allocate cls slots size track
    ⟨.reference done.value, done.state, done.events⟩
  | allocateArray cls length track =>
    let done := h.allocateArray cls length track
    ⟨.reference done.value, done.state, done.events⟩
  | allocateInstance cls track =>
    let done := h.allocateInstance cls track
    ⟨.reference done.value, done.state, done.events⟩
  | free r =>
    let done := h.freeObject r
    ⟨.freed done.value, done.state, done.events⟩
  | release r => ⟨.done, h.release r, []⟩
  | releaseTracked r =>
    let (was, h) := h.releaseTracked r
    ⟨.untracked was, h, []⟩
  | collect =>
    let done := h.collect
    ⟨.reclaimed done.value, done.state, done.events⟩
  | put r index w =>
    match h.arrayPut r index w with
    | .ok h => ⟨.stored (.ok ()), h, []⟩
    | .error e => ⟨.stored (.error e), h, []⟩
  | externalAlloc bytes =>
    let done := h.externalAlloc bytes
    ⟨.outside done.value, done.state, done.events⟩
  | externalFree bytes =>
    let done := h.externalFree bytes
    ⟨.done, done.state, done.events⟩

/-- The object that an operation asks for, if it is an allocation and its class has such
objects. -/
def request? : HeapOp → Option AllocRequest
  | allocate cls slots size track => some ⟨cls, slots, size, track⟩
  | allocateArray cls length track =>
    cls.element?.map fun element => ⟨cls, length, mulSize length element.width, track⟩
  | allocateInstance cls track =>
    match cls.kind with
    | .array _ => none
    | .instances fields => some ⟨cls, fields, mulWrapped fields 4, track⟩
  | _ => none

/-- The operation runs a collection, of its own accord or because it is one. -/
def collects (op : HeapOp) (h : Heap) : Prop :=
  .passBegan .collection ∈ (op.perform h).events

instance (op : HeapOp) (h : Heap) : Decidable (op.collects h) :=
  inferInstanceAs (Decidable (_ ∈ _))

end HeapOp

namespace Heap

/-- The heap after a history. -/
def after (h : Heap) : List HeapOp → Heap
  | [] => h
  | op :: ops => (op.perform h).state.after ops

theorem after_append (h : Heap) (xs ys : List HeapOp) :
    h.after (xs ++ ys) = (h.after xs).after ys := by
  induction xs generalizing h with
  | nil => rfl
  | cons op xs ih => exact ih _

/-- The bytes that a request is charged, header included. -/
def charge (h : Heap) (q : AllocRequest) : Nat := addSize h.settings.headerSize q.size

/-- The heap with the object of a request in the next slot. -/
def placed (h : Heap) (q : AllocRequest) (r : ObjectRef) : Heap :=
  h.place r q.cls q.slots (h.charge q) q.track

end Heap

/-- Two references to one slot are one reference. -/
theorem ObjectRef.ext_slot {r x : ObjectRef} (e : r.slot = x.slot) : r = x := by
  cases r; cases x; cases e; rfl

namespace Heap

/-! ### The object that a reference names -/

theorem object?_eq_some_iff {h : Heap} {r : ObjectRef} {o : HeapObject} :
    h.object? r = some o ↔ h.objects[r.slot]? = some (some o) := by
  simp only [object?, Option.join_eq_some_iff]

theorem remove_eq_none_iff {h : Heap} {r : ObjectRef} : h.remove r = none ↔ h.object? r = none := by
  unfold remove
  cases h.object? r <;> simp

/-- What there was of a removed object. -/
theorem object?_of_remove {h h' : Heap} {r : ObjectRef} {o : HeapObject}
    (e : h.remove r = some (o, h')) : h.object? r = some o := by
  unfold remove at e
  split at e
  · cases e
  · next o' ho => cases e; exact ho

/-- What is left when an object is removed. -/
theorem state_of_remove {h h' : Heap} {r : ObjectRef} {o : HeapObject}
    (e : h.remove r = some (o, h')) :
    h' = { h with
      objects := h.objects.setIfInBounds r.slot none
      used := h.used - o.size
      free := r :: h.free
      tracked := h.tracked.filter (· ≠ r) } := by
  unfold remove at e
  split at e
  · cases e
  · cases e; rfl

/-- A removal takes one object away. -/
theorem object?_remove {h h' : Heap} {r : ObjectRef} {o : HeapObject}
    (e : h.remove r = some (o, h')) (x : ObjectRef) :
    h'.object? x = if x = r then none else h.object? x := by
  rw [state_of_remove e]
  by_cases hx : x = r
  · subst hx
    simp only [object?, Array.getElem?_setIfInBounds_self, if_pos]
    split <;> rfl
  · have hs : r.slot ≠ x.slot := fun e => hx (ObjectRef.ext_slot e.symm)
    simp only [object?, Array.getElem?_setIfInBounds_ne hs, if_neg hx]

/-- What a removal keeps, reclaiming a list of references keeps. -/
theorem reclaim_induction {P : Heap → Prop}
    (step : ∀ {h h' : Heap} {r : ObjectRef} {o : HeapObject},
      P h → h.remove r = some (o, h') → P h') :
    ∀ (rs : List ObjectRef) (h : Heap), P h → P (h.reclaim rs).2
  | [], _, hP => hP
  | r :: rs, h, hP => by
      unfold reclaim
      split
      · exact reclaim_induction step rs h hP
      · next o h' e => exact reclaim_induction step rs h' (step hP e)

/-- Reclaiming takes away the objects that it is given. -/
theorem object?_reclaim (x : ObjectRef) : ∀ (rs : List ObjectRef) (h : Heap),
    (h.reclaim rs).2.object? x = if x ∈ rs then none else h.object? x
  | [], _ => by simp [reclaim]
  | r :: rs, h => by
      unfold reclaim
      split
      · next e =>
          rw [object?_reclaim x rs h]
          by_cases hx : x = r
          · subst hx; simp [remove_eq_none_iff.mp e]
          · simp [hx]
      · next o h' e =>
          rw [object?_reclaim x rs h', object?_remove e]
          by_cases hx : x = r <;> by_cases hm : x ∈ rs <;> simp [hx, hm]

/-- A collection takes away the released objects. -/
theorem object?_collect (h : Heap) (x : ObjectRef) :
    h.collect.state.object? x = if x ∈ h.garbage then none else h.object? x := by
  have e := object?_reclaim x h.garbage.toList { h with garbage := #[] }
  simp only [Array.mem_toList_iff] at e
  exact e

/-- A new object stands in its slot, and the others where they stood. -/
theorem object?_place {h : Heap} {r : ObjectRef} (hr : r.slot ≤ h.objects.size) (cls : Class)
    (slots size : Nat) (track : Bool) (x : ObjectRef) :
    (h.place r cls slots size track).object? x =
      if x = r then some { cls, slots := Array.replicate slots 0, size } else h.object? x := by
  have hs : x = r ↔ x.slot = r.slot := ⟨fun e => e ▸ rfl, ObjectRef.ext_slot⟩
  simp only [place, object?, hs]
  by_cases hlt : r.slot < h.objects.size
  · rw [if_pos hlt, Array.getElem?_setIfInBounds]
    by_cases hx : x.slot = r.slot
    · simp [hx, hlt]
    · simp [hx, Ne.symm hx]
  · have heq : r.slot = h.objects.size := by omega
    rw [if_neg hlt, Array.getElem?_push, ← heq]
    by_cases hx : x.slot = r.slot <;> simp [hx]

/-- Storing an element changes the contents of one object. -/
theorem object?_store (h : Heap) (r : ObjectRef) (index : Nat) (w : Word) (x : ObjectRef) :
    (h.store r index w).object? x =
      if x = r then (h.object? r).map fun o => { o with slots := o.slots.setIfInBounds index w }
      else h.object? x := by
  simp only [store, object?, Array.getElem?_modify]
  by_cases hx : x = r
  · subst hx
    rw [if_pos rfl, if_pos rfl]
    cases h.objects[x.slot]? with
    | none => rfl
    | some slot => cases slot <;> rfl
  · have hs : ¬ r.slot = x.slot := fun e => hx (ObjectRef.ext_slot e.symm)
    rw [if_neg hs, if_neg hx]

end Heap

/-! ### What an operation can come to -/

/-- What an operation can come to. -/
inductive HeapStep (h : Heap) : HeapOp → Outcome Heap Event HeapAnswer → Prop where
  /-- An allocation fits. -/
  | placed {op : HeapOp} {q : AllocRequest} {r : ObjectRef} (asked : op.request? = some q)
      (fits : h.slotFor? (h.charge q) = some r) :
      HeapStep h op ⟨.reference (.ok r), h.placed q r, [.alloc (.allocated (h.charge q))]⟩
  /-- An allocation fits after a collection. -/
  | replaced {op : HeapOp} {q : AllocRequest} {r : ObjectRef} (asked : op.request? = some q)
      (full : h.slotFor? (h.charge q) = none)
      (fits : h.collect.state.slotFor? (h.collect.state.charge q) = some r) :
      HeapStep h op ⟨.reference (.ok r), h.collect.state.placed q r,
        h.collect.events ++ [.alloc (.allocated (h.charge q))]⟩
  /-- An allocation does not fit after a collection either. -/
  | exhausted {op : HeapOp} {q : AllocRequest} (asked : op.request? = some q)
      (full : h.slotFor? (h.charge q) = none)
      (still : h.collect.state.slotFor? (h.charge q) = none) :
      HeapStep h op ⟨.reference (.error (.outOfMemory (h.charge q))), h.collect.state,
        h.collect.events ++ [.alloc (.failed (h.charge q)),
          .notice (.outOfMemory (h.charge q) q.cls.descriptor)]⟩
  /-- An array is asked for whose class is none of arrays. -/
  | noArray {cls : Class} {length : Nat} {track : Bool} (kind : cls.element? = none) :
      HeapStep h (.allocateArray cls length track)
        ⟨.reference (.error (.verify (.notArrayClass cls.descriptor))), h, []⟩
  /-- An object with fields is asked for whose class is one of arrays. -/
  | noInstance {cls : Class} {element : ElementType} {track : Bool}
      (kind : cls.kind = .array element) :
      HeapStep h (.allocateInstance cls track)
        ⟨.reference (.error (.verify (.notInstantiable cls.descriptor))), h, []⟩
  /-- An object is freed. -/
  | freed {r : ObjectRef} {o : HeapObject} {h' : Heap} (found : h.remove r = some (o, h')) :
      HeapStep h (.free r) ⟨.freed (.ok o.size), h', [.alloc (.freed o.size)]⟩
  /-- The object to be freed is not there. -/
  | notFreed {r : ObjectRef} (gone : h.object? r = none) :
      HeapStep h (.free r) ⟨.freed (.error (Heap.stale r)), h, []⟩
  /-- A reference is released. -/
  | released (r : ObjectRef) : HeapStep h (.release r) ⟨.done, h.release r, []⟩
  /-- A reference is tracked no more. -/
  | untracked (r : ObjectRef) :
      HeapStep h (.releaseTracked r)
        ⟨.untracked (h.isTracked r), (h.releaseTracked r).2, []⟩
  /-- A collection. -/
  | collected :
      HeapStep h .collect ⟨.reclaimed h.collect.value, h.collect.state, h.collect.events⟩
  /-- An element is stored. -/
  | stored {r : ObjectRef} {index : Int32} {i : Nat} {w : Word}
      (valid : h.elementIndex r index = .ok i) :
      HeapStep h (.put r index w) ⟨.stored (.ok ()), h.store r i w, []⟩
  /-- There is no such element. -/
  | notStored {r : ObjectRef} {index : Int32} {w : Word} {e : Throwable}
      (invalid : h.elementIndex r index = .error e) :
      HeapStep h (.put r index w) ⟨.stored (.error e), h, []⟩
  /-- Memory outside the heap fits. -/
  | tookOutside {bytes : Nat} (fits : h.externalUsed + bytes ≤ h.settings.externalLimit) :
      HeapStep h (.externalAlloc bytes)
        ⟨.outside true, { h with externalUsed := h.externalUsed + bytes },
          [.alloc (.externalAllocated bytes)]⟩
  /-- Memory outside the heap does not fit. -/
  | refusedOutside {bytes : Nat} (full : ¬ h.externalUsed + bytes ≤ h.settings.externalLimit) :
      HeapStep h (.externalAlloc bytes) ⟨.outside false, h, [.alloc (.externalFailed bytes)]⟩
  /-- Memory outside the heap is freed. -/
  | gaveOutside (bytes : Nat) :
      HeapStep h (.externalFree bytes)
        ⟨.done, { h with externalUsed := h.externalUsed - bytes },
          [.alloc (.externalFreed bytes)]⟩

namespace Heap

@[simp] theorem settings_reclaim (h : Heap) (rs : List ObjectRef) :
    (h.reclaim rs).2.settings = h.settings :=
  reclaim_induction (P := fun x => x.settings = h.settings)
    (fun hP e => by rw [state_of_remove e]; exact hP) rs h rfl

@[simp] theorem settings_collect (h : Heap) : h.collect.state.settings = h.settings :=
  settings_reclaim _ _

@[simp] theorem charge_collect (h : Heap) (q : AllocRequest) :
    h.collect.state.charge q = h.charge q := by
  simp only [charge, settings_collect]

/-- The three ways of an allocation. -/
theorem allocate_step {h : Heap} {op : HeapOp} {q : AllocRequest} (asked : op.request? = some q) :
    HeapStep h op
      ⟨.reference (h.allocate q.cls q.slots q.size q.track).value,
        (h.allocate q.cls q.slots q.size q.track).state,
        (h.allocate q.cls q.slots q.size q.track).events⟩ := by
  have hc : addSize h.settings.headerSize q.size = h.charge q := rfl
  cases fits : h.slotFor? (h.charge q) with
  | some r =>
      simp only [allocate, hc, fits]
      exact .placed asked fits
  | none =>
      cases again : h.collect.state.slotFor? (h.charge q) with
      | some r =>
          have hp := HeapStep.replaced asked fits (by rw [charge_collect]; exact again)
          simp only [placed, charge_collect] at hp
          simp only [allocate, hc, fits, again]
          exact hp
      | none =>
          simp only [allocate, hc, fits, again]
          exact .exhausted asked fits again

end Heap

/-- **What an operation can come to, said once.** -/
theorem HeapOp.perform_step (op : HeapOp) (h : Heap) : HeapStep h op (op.perform h) := by
  cases op with
  | allocate cls slots size track => exact Heap.allocate_step (q := ⟨cls, slots, size, track⟩) rfl
  | allocateArray cls length track =>
      simp only [perform, Heap.allocateArray]
      cases kind : cls.element? with
      | none => exact .noArray kind
      | some element =>
          have asked : (allocateArray cls length track).request? =
              some ⟨cls, length, mulSize length element.width, track⟩ := by
            simp only [request?, kind, Option.map_some]
          have hstep := Heap.allocate_step (h := h) asked
          exact hstep
  | allocateInstance cls track =>
      simp only [perform, Heap.allocateInstance]
      cases kind : cls.kind with
      | array element => exact .noInstance kind
      | instances fields =>
          have asked : (allocateInstance cls track).request? =
              some ⟨cls, fields, mulWrapped fields 4, track⟩ := by
            simp only [request?, kind]
          have hstep := Heap.allocate_step (h := h) asked
          exact hstep
  | free r =>
      simp only [perform, Heap.freeObject]
      cases found : h.remove r with
      | none => exact .notFreed (Heap.remove_eq_none_iff.mp found)
      | some gone => exact .freed found
  | release r => exact .released r
  | releaseTracked r => exact .untracked r
  | collect => exact .collected
  | put r index w =>
      simp only [perform, Heap.arrayPut]
      cases valid : h.elementIndex r index with
      | error e => exact .notStored valid
      | ok i => exact .stored valid
  | externalAlloc bytes =>
      simp only [perform, Heap.externalAlloc]
      split
      · next fits => exact .tookOutside fits
      · next full => exact .refusedOutside full
  | externalFree bytes => exact .gaveOutside bytes

end TracedMachine
