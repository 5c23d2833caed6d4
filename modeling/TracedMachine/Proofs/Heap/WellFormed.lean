import TracedMachine.Proofs.Heap.Operations
import Mathlib.Algebra.GroupWithZero.Nat
import Mathlib.Algebra.Order.BigOperators.Group.List
import Mathlib.Algebra.Order.Group.Nat
import Mathlib.Data.List.Nodup
import Mathlib.Data.List.ReduceOption

/-!
# Proofs — Heap — WellFormed

A heap says the same thing several times over: the slots, the stack of free slots and the count of
bytes each tell which objects there are, and the tracked set tells of some of them.  `WellFormed`
says that they agree.

Every function of a heap keeps `WellFormed` (`WellFormed.remove`, `WellFormed.place`, …), so every
operation does (`WellFormed.perform`) and every history from an empty heap
(`heap_agrees_with_itself`, `Reachable.wellFormed`).  A collection is followed reference by
reference (`duringCollection`): neither in the middle of one nor between operations can the bytes
of an object exceed the bytes in use, or the free slots outnumber the slots, so no count falls
below zero.
-/

namespace TracedMachine

namespace Heap

/-- The objects in a heap, by slot. -/
def live (h : Heap) : List HeapObject := h.objects.toList.reduceOption

/-- The slots, the free slots, the bytes in use and the tracked references agree. -/
structure WellFormed (h : Heap) : Prop where
  /-- No slot is free twice. -/
  free_nodup : (h.free.map ObjectRef.slot).Nodup
  /-- The free slots are the empty ones. -/
  mem_free_iff : ∀ i : Nat, i ∈ h.free.map ObjectRef.slot ↔ h.objects[i]? = some none
  /-- The bytes in use are those of the objects. -/
  used_eq : h.used = (h.live.map HeapObject.size).sum
  /-- The bytes in use are within the limit. -/
  used_le : h.used ≤ h.settings.limit
  /-- Tracked references name objects. -/
  tracked_live : ∀ r ∈ h.tracked, (h.object? r).isSome

/-- The heap after the first `count` released references of a collection. -/
def duringCollection (h : Heap) (count : Nat) : Heap :=
  ({ h with garbage := #[] }.reclaim (h.garbage.toList.take count)).2

/-- The count of objects is right, and nothing that is counted can fall below zero. -/
structure Counted (h : Heap) : Prop where
  free_le : h.free.length ≤ h.objects.size
  objectCount_eq : h.objectCount = h.live.length
  size_le_used : ∀ (r : ObjectRef) (o : HeapObject), h.object? r = some o → o.size ≤ h.used

/-! ### Objects in a list of slots -/

/-- Changing one slot changes what stands at one place among the objects. -/
theorem reduceOption_set {α : Type} {l : List (Option α)} {i : Nat} {a : Option α}
    (e : l[i]? = some a) (b : Option α) :
    ∃ xs ys, l.reduceOption = xs ++ a.toList ++ ys ∧
      (l.set i b).reduceOption = xs ++ b.toList ++ ys := by
  obtain ⟨hi, rfl⟩ := List.getElem?_eq_some_iff.mp e
  obtain ⟨l₁, l₂, hl, -, hset⟩ := @List.exists_of_set _ i b l hi
  refine ⟨l₁.reduceOption, l₂.reduceOption, ?_, ?_⟩
  · conv_lhs => rw [hl]
    rw [List.reduceOption_append, List.append_assoc]
    cases l[i] <;> rfl
  · rw [hset, List.reduceOption_append, List.append_assoc]
    cases b <;> rfl

/-- Changing the contents of an object does not change the sizes of the objects. -/
theorem map_size_modify (f : HeapObject → HeapObject) (hf : ∀ o, (f o).size = o.size) :
    ∀ (l : List (Option HeapObject)) (i : Nat),
      (l.modify i (Option.map f)).reduceOption.map HeapObject.size =
        l.reduceOption.map HeapObject.size
  | [], i => by simp
  | none :: l, 0 => by simp
  | some o :: l, 0 => by simp [hf]
  | none :: l, i + 1 => by simp [map_size_modify f hf l i]
  | some o :: l, i + 1 => by simp [map_size_modify f hf l i]

/-- The empty slots, counted by number and counted as they stand. -/
theorem length_filter_range {α : Type} [DecidableEq α] (l : List (Option α)) :
    ((List.range l.length).filter fun i => l[i]? = some none).length =
      (l.filter Option.isNone).length := by
  induction l with
  | nil => rfl
  | cons a l ih =>
      rw [List.length_cons, List.range_succ_eq_map]
      cases a <;> simp [List.filter_map, Function.comp_def, ih]

/-! ### What follows from well-formedness -/

namespace WellFormed

variable {h : Heap}

/-- The references to free slots are the references that name no object and have a slot. -/
theorem slot_of_mem_free (hw : h.WellFormed) {r : ObjectRef} (hr : r ∈ h.free) :
    h.objects[r.slot]? = some none :=
  (hw.mem_free_iff r.slot).mp (List.mem_map_of_mem hr)

theorem length_free (hw : h.WellFormed) :
    h.free.length = (h.objects.toList.filter Option.isNone).length := by
  have hp : (h.free.map ObjectRef.slot).Perm
      ((List.range h.objects.toList.length).filter fun i => h.objects.toList[i]? = some none) := by
    refine (List.perm_ext_iff_of_nodup hw.free_nodup (List.nodup_range.filter _)).mpr fun i => ?_
    rw [hw.mem_free_iff i]
    simp only [Array.getElem?_toList, List.mem_filter, List.mem_range, decide_eq_true_eq]
    refine ⟨fun e => ⟨?_, e⟩, fun e => e.2⟩
    exact (Array.getElem?_eq_some_iff.mp e).1
  rw [← length_filter_range, ← hp.length_eq, List.length_map]

theorem counted (hw : h.WellFormed) : h.Counted := by
  have hsum : h.objects.size = h.live.length + h.free.length := by
    rw [hw.length_free, live, ← List.length_eq_reduceOption_length_add_filter_none,
      Array.length_toList]
  refine ⟨?_, ?_, fun r o ho => ?_⟩
  · omega
  · rw [objectCount, hsum, Nat.add_sub_cancel]
  · rw [hw.used_eq]
    refine List.le_sum_of_mem (List.mem_map_of_mem ?_)
    rw [live, List.reduceOption_mem_iff]
    exact Array.mem_toList_iff.mpr (Array.mem_of_getElem? (object?_eq_some_iff.mp ho))

/-! ### What keeps well-formedness -/

theorem empty (settings : HeapSettings) : (Heap.empty settings).WellFormed where
  free_nodup := List.nodup_nil
  mem_free_iff i := by simp [Heap.empty]
  used_eq := rfl
  used_le := Nat.zero_le _
  tracked_live r hr := by simp [Heap.empty] at hr

/-- Only the slots, the free slots, the bytes in use, the limit and the tracked references
matter. -/
theorem congr {h' : Heap} (hw : h.WellFormed) (ho : h'.objects = h.objects)
    (hf : h'.free = h.free) (hu : h'.used = h.used) (hs : h'.settings = h.settings)
    (ht : ∀ r ∈ h'.tracked, r ∈ h.tracked) : h'.WellFormed where
  free_nodup := hf ▸ hw.free_nodup
  mem_free_iff i := by rw [hf, ho]; exact hw.mem_free_iff i
  used_eq := by rw [hu, live, ho]; exact hw.used_eq
  used_le := by rw [hu, hs]; exact hw.used_le
  tracked_live r hr := by rw [object?, ho]; exact hw.tracked_live r (ht r hr)

/-- The objects of a heap after one has been removed. -/
theorem live_remove {h' : Heap} {r : ObjectRef} {o : HeapObject}
    (e : h.remove r = some (o, h')) : ∃ xs ys, h.live = xs ++ o :: ys ∧ h'.live = xs ++ ys := by
  have hslot : h.objects[r.slot]? = some (some o) := object?_eq_some_iff.mp (object?_of_remove e)
  obtain ⟨xs, ys, hbefore, hafter⟩ :=
    reduceOption_set (l := h.objects.toList) (by rw [Array.getElem?_toList]; exact hslot) none
  refine ⟨xs, ys, by simpa [live] using hbefore, ?_⟩
  rw [state_of_remove e]
  simp only [live, Array.toList_setIfInBounds, hafter, Option.toList_none, List.append_nil]

theorem remove {h' : Heap} {r : ObjectRef} {o : HeapObject} (hw : h.WellFormed)
    (e : h.remove r = some (o, h')) : h'.WellFormed := by
  have hslot : h.objects[r.slot]? = some (some o) := object?_eq_some_iff.mp (object?_of_remove e)
  have hview := object?_remove e
  have hstate := state_of_remove e
  constructor
  · rw [hstate]
    refine List.nodup_cons.mpr ⟨fun hm => ?_, hw.free_nodup⟩
    -- a free slot is empty, and this one holds the object
    rw [(hw.mem_free_iff _).mp hm] at hslot
    cases hslot
  · intro i
    rw [hstate]
    simp only [List.map_cons, List.mem_cons, hw.mem_free_iff, Array.getElem?_setIfInBounds]
    have hlt : r.slot < h.objects.size := (Array.getElem?_eq_some_iff.mp hslot).1
    by_cases hi : r.slot = i
    · subst hi; simp [hlt]
    · simp [hi, Ne.symm hi]
  · obtain ⟨xs, ys, hbefore, hafter⟩ := live_remove e
    have hused := hw.used_eq
    rw [hbefore] at hused
    rw [hafter, hstate]
    simp only [List.map_append, List.map_cons, List.sum_append, List.sum_cons] at hused ⊢
    omega
  · rw [hstate]
    exact Nat.le_trans (Nat.sub_le _ _) hw.used_le
  · intro x hx
    rw [hstate] at hx
    obtain ⟨hx, hne⟩ := List.mem_filter.mp hx
    rw [hview, if_neg (of_decide_eq_true hne)]
    exact hw.tracked_live x hx

theorem reclaim (hw : h.WellFormed) (rs : List ObjectRef) : (h.reclaim rs).2.WellFormed :=
  reclaim_induction (fun hw e => hw.remove e) rs h hw

/-- Which references have been released does not matter. -/
theorem emptied (hw : h.WellFormed) : { h with garbage := #[] }.WellFormed :=
  hw.congr rfl rfl rfl rfl fun _ hr => hr

theorem duringCollection (hw : h.WellFormed) (count : Nat) :
    (h.duringCollection count).WellFormed :=
  hw.emptied.reclaim _

theorem collect (hw : h.WellFormed) : h.collect.state.WellFormed := by
  have hall := hw.duringCollection h.garbage.toList.length
  rw [Heap.duringCollection, List.take_length] at hall
  exact hall.congr rfl rfl rfl rfl fun _ hr => hr

/-- The slot that is used next is empty or the first one beyond all. -/
theorem nextSlot (hw : h.WellFormed) {r : ObjectRef} (e : h.nextSlot? = some r) :
    (h.objects[r.slot]? = some none ∧ h.free = r :: h.free.tail) ∨
      (r.slot = h.objects.size ∧ h.free = []) := by
  unfold nextSlot? at e
  split at e
  · next x rest hfree =>
      cases e
      exact .inl ⟨hw.slot_of_mem_free (hfree ▸ List.mem_cons_self), by rw [hfree, List.tail_cons]⟩
  · next hfree =>
      unfold ObjectRef.ofSlot? at e
      split at e
      · cases e; exact .inr ⟨rfl, hfree⟩
      · cases e

theorem slotFor {size : Nat} {r : ObjectRef} (e : h.slotFor? size = some r) :
    h.used + size ≤ h.settings.limit ∧ h.nextSlot? = some r := by
  unfold slotFor? at e
  split at e
  · cases e
  · exact ⟨by omega, e⟩

/-- The slot that is used next holds no object and leaves no gap. -/
theorem vacant (hw : h.WellFormed) {size : Nat} {r : ObjectRef} (e : h.slotFor? size = some r) :
    h.object? r = none ∧ r.slot ≤ h.objects.size := by
  rcases hw.nextSlot (slotFor e).2 with ⟨hslot, -⟩ | ⟨hslot, -⟩
  · exact ⟨by rw [object?, hslot]; rfl, Nat.le_of_lt (Array.getElem?_eq_some_iff.mp hslot).1⟩
  · exact ⟨by rw [object?, hslot, Array.getElem?_size]; rfl, Nat.le_of_eq hslot⟩

/-- A granted request puts its object into an empty slot and leaves the others. -/
theorem object?_placed (hw : h.WellFormed) {q : AllocRequest} {r : ObjectRef}
    (e : h.slotFor? (h.charge q) = some r) (x : ObjectRef) :
    (h.placed q r).object? x =
      if x = r then some { cls := q.cls, slots := Array.replicate q.slots 0, size := h.charge q }
      else h.object? x :=
  object?_place (hw.vacant e).2 _ _ _ _ x

/-- The objects of a heap after one has been placed, for the list of slots on both branches. -/
theorem live_place (hw : h.WellFormed) {size : Nat} {r : ObjectRef}
    (e : h.slotFor? size = some r) (cls : Class) (slots : Nat) (track : Bool) :
    ∃ xs ys, h.live = xs ++ ys ∧ (h.place r cls slots size track).live =
      xs ++ { cls, slots := Array.replicate slots 0, size } :: ys := by
  rcases hw.nextSlot (slotFor e).2 with ⟨hslot, -⟩ | ⟨hslot, -⟩
  · have hlt : r.slot < h.objects.size := (Array.getElem?_eq_some_iff.mp hslot).1
    obtain ⟨xs, ys, hbefore, hafter⟩ := reduceOption_set (l := h.objects.toList)
      (by rw [Array.getElem?_toList]; exact hslot)
      (some { cls, slots := Array.replicate slots 0, size })
    refine ⟨xs, ys, by simpa [live] using hbefore, ?_⟩
    simp only [live, Heap.place, if_pos hlt, Array.toList_setIfInBounds, hafter]
    simp
  · refine ⟨h.live, [], by simp, ?_⟩
    simp [live, Heap.place, hslot, List.reduceOption_append]

theorem place (hw : h.WellFormed) {size : Nat} {r : ObjectRef} (e : h.slotFor? size = some r)
    (cls : Class) (slots : Nat) (track : Bool) : (h.place r cls slots size track).WellFormed := by
  obtain ⟨hfits, hnext⟩ := slotFor e
  have hview := object?_place (hw.vacant e).2 cls slots size track
  constructor
  · rcases hw.nextSlot hnext with ⟨-, hfree⟩ | ⟨-, hfree⟩
    · have hnodup := hw.free_nodup
      rw [hfree, List.map_cons] at hnodup
      exact (List.nodup_cons.mp hnodup).2
    · simp [Heap.place, hfree]
  · intro i
    have hmem := hw.mem_free_iff i
    rcases hw.nextSlot hnext with ⟨hslot, hfree⟩ | ⟨hslot, hfree⟩
    · have hlt : r.slot < h.objects.size := (Array.getElem?_eq_some_iff.mp hslot).1
      have hnodup := hw.free_nodup
      rw [hfree, List.map_cons] at hnodup hmem
      simp only [Heap.place, if_pos hlt, Array.getElem?_setIfInBounds]
      by_cases hi : r.slot = i
      · -- the slot has left the free ones, in which it stood once
        subst hi
        simpa [hlt] using (List.nodup_cons.mp hnodup).1
      · rw [if_neg hi, ← hmem, List.mem_cons, or_iff_right (Ne.symm hi)]
    · simp only [Heap.place, hslot, Nat.lt_irrefl, if_false, Array.getElem?_push]
      rw [hfree, List.map_nil] at hmem
      rw [hfree, List.tail_nil, List.map_nil]
      by_cases hi : i = h.objects.size
      · simp [hi]
      · rw [if_neg hi]; exact hmem
  · obtain ⟨xs, ys, hbefore, hafter⟩ := hw.live_place e cls slots track
    have hused := hw.used_eq
    rw [hbefore] at hused
    rw [hafter]
    simp only [Heap.place, List.map_append, List.map_cons, List.sum_append,
      List.sum_cons] at hused ⊢
    omega
  · exact hfits
  · intro x hx
    rw [hview]
    by_cases hxr : x = r
    · rw [if_pos hxr]; rfl
    · rw [if_neg hxr]
      refine hw.tracked_live x ?_
      simp only [Heap.place] at hx
      split at hx
      · rcases List.mem_cons.mp hx with hx | hx
        · exact absurd hx hxr
        · exact (List.mem_filter.mp hx).1
      · exact hx

theorem store (hw : h.WellFormed) (r : ObjectRef) (index : Nat) (w : Word) :
    (h.store r index w).WellFormed := by
  have hview := object?_store h r index w
  constructor
  · exact hw.free_nodup
  · intro i
    rw [Heap.store, Array.getElem?_modify, hw.mem_free_iff i]
    by_cases hi : r.slot = i
    · rw [if_pos hi]
      cases h.objects[i]? with
      | none => simp
      | some slot => cases slot <;> simp
    · rw [if_neg hi]
  · have hsizes := map_size_modify
      (fun o => { o with slots := o.slots.setIfInBounds index w }) (fun _ => rfl)
      h.objects.toList r.slot
    rw [live, Heap.store, Array.toList_modify, hsizes]
    exact hw.used_eq
  · exact hw.used_le
  · intro x hx
    have hlive := hw.tracked_live x hx
    rw [hview]
    by_cases hxr : x = r
    · rw [if_pos hxr, Option.isSome_map, ← hxr]; exact hlive
    · rw [if_neg hxr]; exact hlive

theorem release (hw : h.WellFormed) (r : ObjectRef) : (h.release r).WellFormed :=
  hw.congr rfl rfl rfl rfl fun _ hr => (List.mem_filter.mp hr).1

theorem releaseTracked (hw : h.WellFormed) (r : ObjectRef) : (h.releaseTracked r).2.WellFormed :=
  hw.congr rfl rfl rfl rfl fun _ hr => (List.mem_filter.mp hr).1

/-- Memory outside the heap does not matter. -/
theorem external (hw : h.WellFormed) (bytes : Nat) :
    { h with externalUsed := bytes }.WellFormed :=
  hw.congr rfl rfl rfl rfl fun _ hr => hr

/-- **An operation keeps a heap well formed**, whatever references it is given. -/
theorem perform (hw : h.WellFormed) (op : HeapOp) : (op.perform h).state.WellFormed := by
  have hstep := op.perform_step h
  generalize op.perform h = out at hstep
  cases hstep with
  | placed asked fits => exact hw.place fits _ _ _
  | replaced asked full fits => exact hw.collect.place fits _ _ _
  | exhausted => exact hw.collect
  | noArray | noInstance | notFreed | notStored | refusedOutside => exact hw
  | freed found => exact hw.remove found
  | released r => exact hw.release r
  | untracked r => exact hw.releaseTracked r
  | collected => exact hw.collect
  | stored valid => exact hw.store _ _ _
  | tookOutside | gaveOutside => exact hw.external _

/-- A history keeps a heap well formed. -/
theorem after (hw : h.WellFormed) (ops : List HeapOp) : (h.after ops).WellFormed := by
  induction ops generalizing h with
  | nil => exact hw
  | cons op ops ih => exact ih (hw.perform op)

end WellFormed

@[simp] theorem settings_perform (op : HeapOp) (h : Heap) :
    (op.perform h).state.settings = h.settings := by
  have hstep := op.perform_step h
  generalize op.perform h = out at hstep
  cases hstep with
  | replaced | exhausted | collected => exact settings_collect h
  | freed found => rw [state_of_remove found]
  | _ => rfl

@[simp] theorem settings_after (h : Heap) (ops : List HeapOp) :
    (h.after ops).settings = h.settings := by
  induction ops generalizing h with
  | nil => rfl
  | cons op ops ih => exact (ih _).trans (settings_perform op h)

/-! ### Reachable heaps -/

/-- A heap that requests lead to from an empty one. -/
inductive Reachable : Heap → Prop where
  | empty (settings : HeapSettings) : Reachable (Heap.empty settings)
  | perform {h : Heap} (reached : Reachable h) (op : HeapOp) : Reachable (op.perform h).state

namespace Reachable

variable {h : Heap}

theorem after (reached : h.Reachable) (ops : List HeapOp) : (h.after ops).Reachable := by
  induction ops generalizing h with
  | nil => exact reached
  | cons op ops ih => exact ih (reached.perform op)

theorem wellFormed (reached : h.Reachable) : h.WellFormed := by
  induction reached with
  | empty settings => exact .empty settings
  | perform _ op ih => exact ih.perform op

end Reachable

/-- **A heap agrees with itself.**  After every history of an empty heap, and after every
reference of a collection that follows, the free slots are the empty ones and none is free twice,
the bytes in use are those of the objects and within the limit, and what is tracked is there.  So
the count of objects is right, and neither it nor the bytes in use can fall below zero. -/
theorem heap_agrees_with_itself (settings : HeapSettings) (ops : List HeapOp) :
    let h := (Heap.empty settings).after ops
    h.settings = settings ∧ h.WellFormed ∧ h.Counted ∧
      ∀ count, (h.duringCollection count).WellFormed ∧ (h.duringCollection count).Counted := by
  have hw := (WellFormed.empty settings).after ops
  refine ⟨settings_after _ ops, hw, hw.counted, fun count => ?_⟩
  exact ⟨hw.duringCollection count, (hw.duringCollection count).counted⟩

end Heap

end TracedMachine
