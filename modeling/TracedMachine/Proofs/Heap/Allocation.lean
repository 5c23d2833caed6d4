import TracedMachine.Proofs.Heap.Lifetime
import TracedMachine.Proofs.Machine.Passes
import Mathlib.Algebra.BigOperators.Group.Finset.Basic

/-!
# Proofs — Heap — Allocation

When an allocation collects, when it fails, and what it is charged.

The next collection removes the *condemned* objects (`condemned`), those that are there and whose
references have been released.  A reference may have been released twice, or long after its object
was gone; its bytes count once or not at all (`WellFormed.used_collect`).

**Demand** (`allocation_on_demand`).  A request that fits is granted at once.  One that does not
fit makes the heap collect, once, and is then granted exactly if it fits without the condemned
objects.  All other objects stay as they are.  What a request can change is said by `Sheds`, which
objects are removed, and by `Gains`, which object is added.

**Charges** (`granted_array_fits_iff`).  Sizes are added and multiplied up to the largest one, and
one that would be larger counts as the largest (`addSize_mulSize`).  So a heap whose limit is the
largest size takes an array for smaller than it is, if it holds no other bytes; any other array is
charged its exact size and fits.
-/

namespace TracedMachine

namespace Heap

/-- The bytes charged to the object that a reference names; none if it names no object. -/
def bytesAt (h : Heap) (r : ObjectRef) : Nat := ((h.object? r).map HeapObject.size).getD 0

/-- The objects that the next collection removes: those that are there and have been released. -/
def condemned (h : Heap) : Finset ObjectRef :=
  h.garbage.toList.toFinset.filter fun r => (h.object? r).isSome

/-- The bytes of the objects that the next collection removes. -/
def condemnedBytes (h : Heap) : Nat := ∑ r ∈ h.condemned, h.bytesAt r

/-- The bytes charged to the objects in all slots but that of a reference. -/
def bytesBesides (h : Heap) (r : ObjectRef) : Nat :=
  ((h.objects.toList.set r.slot none).reduceOption.map HeapObject.size).sum

theorem mem_condemned {h : Heap} {r : ObjectRef} :
    r ∈ h.condemned ↔ r ∈ h.garbage ∧ (h.object? r).isSome := by
  rw [condemned, Finset.mem_filter, List.mem_toFinset, Array.mem_toList_iff]

theorem bytesAt_remove {h h' : Heap} {r : ObjectRef} {o : HeapObject}
    (e : h.remove r = some (o, h')) (x : ObjectRef) :
    h'.bytesAt x = if x = r then 0 else h.bytesAt x := by
  rw [bytesAt, object?_remove e]
  split <;> rfl

/-! ### What a collection removes -/

/-- Objects are taken out of a heap, and the others stay as they are. -/
structure Sheds (h : Heap) (gone : Finset ObjectRef) (h' : Heap) : Prop where
  objects : ∀ x, h'.object? x = if x ∈ gone then none else h.object? x
  bytes : h'.used + ∑ r ∈ gone, h.bytesAt r = h.used
  tracked : ∀ x, x ∈ h'.tracked ↔ x ∈ h.tracked ∧ x ∉ gone

/-- An object that is not taken out stays as it is. -/
theorem Sheds.kept {h h' : Heap} {gone : Finset ObjectRef} {x : ObjectRef} {o : HeapObject}
    (hsheds : h.Sheds gone h') (ho : h.object? x = some o) (hx : x ∉ gone) :
    h'.object? x = some o := by
  rw [hsheds.objects, if_neg hx, ho]

/-- Collecting leaves no more objects than there were. -/
theorem objectCount_collect_le (h : Heap) : h.collect.state.objectCount ≤ h.objectCount := by
  refine reclaim_induction (P := fun x => x.objectCount ≤ h.objectCount) (fun hP e => ?_)
    h.garbage.toList { h with garbage := #[] } (Nat.le_refl _)
  rw [state_of_remove e]
  simp only [objectCount, Array.size_setIfInBounds, List.length_cons] at hP ⊢
  omega

theorem collections_collect (h : Heap) : h.collect.state.collections = h.collections + 1 := by
  have hsame := reclaim_induction (P := fun x => x.collections = h.collections)
    (fun hP e => by rw [state_of_remove e]; exact hP) h.garbage.toList { h with garbage := #[] } rfl
  exact congrArg (· + 1) hsame

namespace WellFormed

variable {h : Heap}

/-- Reclaiming gives back the bytes of what it is given, each object's once. -/
theorem used_reclaim (hw : h.WellFormed) (rs : List ObjectRef) :
    (h.reclaim rs).2.used + ∑ r ∈ rs.toFinset, h.bytesAt r = h.used := by
  induction rs generalizing h with
  | nil => rfl
  | cons r rs ih =>
      rw [List.toFinset_cons]
      unfold Heap.reclaim
      split
      · next e =>
        have hnone : h.bytesAt r = 0 := by rw [bytesAt, remove_eq_none_iff.mp e]; rfl
        rw [Finset.sum_insert_zero hnone]
        exact ih hw
      · next o h' e =>
        have hsize : h.bytesAt r = o.size := by rw [bytesAt, object?_of_remove e]; rfl
        have hself : h'.bytesAt r = 0 := by rw [bytesAt_remove e, if_pos rfl]
        -- the object is gone when the rest is reclaimed, so that its bytes do not count again
        have hrest : ∑ x ∈ rs.toFinset, h'.bytesAt x = ∑ x ∈ rs.toFinset.erase r, h.bytesAt x := by
          rw [← Finset.sum_erase rs.toFinset hself]
          refine Finset.sum_congr rfl fun x hx => ?_
          rw [bytesAt_remove e, if_neg (Finset.ne_of_mem_erase hx)]
        have hsum := Finset.add_sum_erase (insert r rs.toFinset) h.bytesAt
          (Finset.mem_insert_self r rs.toFinset)
        rw [Finset.erase_insert_eq_erase, hsize] at hsum
        have hused : h'.used + o.size = h.used := by
          rw [state_of_remove e]
          exact Nat.sub_add_cancel (hw.counted.size_le_used r o (object?_of_remove e))
        have hthen := ih (hw.remove e)
        rw [hrest] at hthen
        rw [← hsum]
        dsimp only
        omega

/-- Reclaiming drops what it is given from the tracked set. -/
theorem tracked_reclaim (hw : h.WellFormed) (rs : List ObjectRef) (x : ObjectRef) :
    x ∈ (h.reclaim rs).2.tracked ↔ x ∈ h.tracked ∧ x ∉ rs := by
  induction rs generalizing h with
  | nil => simp [Heap.reclaim]
  | cons r rs ih =>
      unfold Heap.reclaim
      split
      · next e =>
        -- what is not there is not tracked
        have hne : x ∈ h.tracked → x ≠ r := by
          rintro hx rfl
          have hlive := hw.tracked_live x hx
          rw [remove_eq_none_iff.mp e] at hlive
          cases hlive
        rw [ih hw, List.mem_cons, not_or]
        exact ⟨fun hx => ⟨hx.1, hne hx.1, hx.2⟩, fun hx => ⟨hx.1, hx.2.2⟩⟩
      · next o h' e =>
        have htracked : x ∈ h'.tracked ↔ x ∈ h.tracked ∧ x ≠ r := by
          rw [state_of_remove e, List.mem_filter, decide_eq_true_iff]
        rw [ih (hw.remove e), htracked, List.mem_cons, not_or, and_assoc]

/-- **A collection gives back the bytes of the condemned objects.** -/
theorem used_collect (hw : h.WellFormed) :
    h.collect.state.used + h.condemnedBytes = h.used := by
  have hbytes : h.condemnedBytes = ∑ r ∈ h.garbage.toList.toFinset, h.bytesAt r := by
    refine Finset.sum_filter_of_ne fun r _ hr => ?_
    unfold bytesAt at hr
    cases ho : h.object? r with
    | none => simp [ho] at hr
    | some o => rfl
  rw [hbytes]
  exact hw.emptied.used_reclaim h.garbage.toList

/-- A collection removes the condemned objects and no others. -/
theorem sheds_collect (hw : h.WellFormed) : h.Sheds h.condemned h.collect.state where
  objects x := by
    rw [object?_collect]
    by_cases hx : (h.object? x).isSome
    · simp only [mem_condemned, hx, and_true]
    · rw [Option.not_isSome_iff_eq_none.mp hx, ite_self, ite_self]
  bytes := hw.used_collect
  tracked x := by
    refine (hw.emptied.tracked_reclaim h.garbage.toList x).trans (and_congr_right fun hx => ?_)
    rw [mem_condemned, and_iff_left (hw.tracked_live x hx), Array.mem_toList_iff]

end WellFormed

/-! ### What a granted request adds -/

/-- While there are references left, a slot is found for whatever fits. -/
theorem slotFor?_eq_none_iff {h : Heap} (few : h.objectCount < slotLimit) (size : Nat) :
    h.slotFor? size = none ↔ h.settings.limit < h.used + size := by
  have hnext : h.nextSlot? ≠ none := by
    unfold nextSlot?
    split
    · exact Option.some_ne_none _
    · next hfree =>
      have hlt : h.objects.size < slotLimit := by
        rwa [objectCount, hfree, List.length_nil, Nat.sub_zero] at few
      rw [ObjectRef.ofSlot?, dif_pos hlt]
      exact Option.some_ne_none _
  unfold slotFor?
  by_cases hfull : h.settings.limit < h.used + size
  · rw [if_pos hfull]
    exact iff_of_true rfl hfull
  · rw [if_neg hfull]
    exact iff_of_false hnext hfull

/-- An object is put into a heap under a reference that named none, and the others stay as they
are.  It has the class of the request, all its slots are zero, and it is tracked if the request says
so. -/
structure Gains (h : Heap) (q : AllocRequest) (bytes : Nat) (r : ObjectRef) (h' : Heap) : Prop where
  vacant : h.object? r = none
  objects : ∀ x, h'.object? x =
    if x = r then some { cls := q.cls, slots := Array.replicate q.slots 0, size := bytes }
    else h.object? x
  used : h'.used = h.used + bytes
  tracked : ∀ x, x ∈ h'.tracked ↔ if x = r then q.track = true else x ∈ h.tracked

theorem WellFormed.gains_placed {h : Heap} (hw : h.WellFormed) {q : AllocRequest} {r : ObjectRef}
    (e : h.slotFor? (h.charge q) = some r) : h.Gains q (h.charge q) r (h.placed q r) where
  vacant := (hw.vacant e).1
  objects := hw.object?_placed e
  used := rfl
  tracked x := by
    have huntracked : r ∉ h.tracked := by
      intro hr
      have hlive := hw.tracked_live r hr
      rw [(hw.vacant e).1] at hlive
      cases hlive
    unfold placed Heap.place
    dsimp only
    by_cases hx : x = r
    · cases htrack : q.track <;> simp [hx, huntracked]
    · cases htrack : q.track <;> simp [hx]

/-- An object that was there is not the new one. -/
theorem Gains.kept {h h' : Heap} {q : AllocRequest} {bytes : Nat} {r x : ObjectRef} {o : HeapObject}
    (hgains : h.Gains q bytes r h') (ho : h.object? x = some o) : h'.object? x = some o := by
  have hne : x ≠ r := by
    rintro rfl
    rw [hgains.vacant] at ho
    cases ho
  rw [hgains.objects, if_neg hne, ho]

/-! ### Demand -/

/-- **What an allocation comes to**, by what fits. -/
structure OnDemand (h : Heap) (q : AllocRequest) (out : Outcome Heap Event HeapAnswer) : Prop where
  /-- What fits is granted at once. -/
  atOnce : h.used + h.charge q ≤ h.settings.limit →
    (∃ r, out.value = .reference (.ok r) ∧ h.Gains q (h.charge q) r out.state) ∧
      out.state.collections = h.collections ∧ tracedCalls out.events = []
  /-- What does not fit makes the heap collect once, and is granted if it fits then. -/
  collecting : h.settings.limit < h.used + h.charge q →
    ∃ left, h.Sheds h.condemned left ∧ out.state.collections = h.collections + 1 ∧
      tracedCalls out.events = Pass.collection.calls ∧
      (h.used - h.condemnedBytes + h.charge q ≤ h.settings.limit →
        ∃ r, out.value = .reference (.ok r) ∧ left.Gains q (h.charge q) r out.state) ∧
      (h.settings.limit < h.used - h.condemnedBytes + h.charge q →
        out.value = .reference (.error (.outOfMemory (h.charge q))) ∧ out.state = left)
  /-- Objects that are not condemned stay as they are. -/
  others : ∀ x o, h.object? x = some o → x ∉ h.condemned → out.state.object? x = some o

section

variable {h : Heap} {q : AllocRequest} {r : ObjectRef}

/-- After a collection there is room for what fits without the condemned objects. -/
theorem WellFormed.slotFor?_collect_eq_none_iff (hw : h.WellFormed)
    (few : h.objectCount < slotLimit) (size : Nat) :
    h.collect.state.slotFor? size = none ↔
      h.settings.limit < h.used - h.condemnedBytes + size := by
  have hleft : h.collect.state.used = h.used - h.condemnedBytes :=
    Nat.eq_sub_of_add_eq hw.used_collect
  rw [slotFor?_eq_none_iff (Nat.lt_of_le_of_lt h.objectCount_collect_le few), settings_collect,
    hleft]

theorem WellFormed.onDemand_placed (hw : h.WellFormed)
    (fits : h.slotFor? (h.charge q) = some r) :
    h.OnDemand q ⟨.reference (.ok r), h.placed q r, [.alloc (.allocated (h.charge q))]⟩ := by
  have hgains := hw.gains_placed fits
  refine ⟨fun _ => ⟨⟨r, rfl, hgains⟩, rfl, rfl⟩, fun hover => ?_, fun x o ho _ => hgains.kept ho⟩
  exact absurd hover (Nat.not_lt_of_le (WellFormed.slotFor fits).1)

theorem WellFormed.onDemand_replaced (hw : h.WellFormed) (few : h.objectCount < slotLimit)
    (full : h.slotFor? (h.charge q) = none)
    (fits : h.collect.state.slotFor? (h.collect.state.charge q) = some r) :
    h.OnDemand q ⟨.reference (.ok r), h.collect.state.placed q r,
      h.collect.events ++ [.alloc (.allocated (h.charge q))]⟩ := by
  have hover := (slotFor?_eq_none_iff few _).mp full
  have hsheds := hw.sheds_collect
  have hgains := hw.collect.gains_placed fits
  rw [charge_collect] at hgains fits
  have hroom : ¬ h.settings.limit < h.used - h.condemnedBytes + h.charge q := by
    rw [← hw.slotFor?_collect_eq_none_iff few, fits]
    exact Option.some_ne_none r
  refine ⟨fun hfit => absurd hover (Nat.not_lt_of_le hfit), fun _ => ?_, ?_⟩
  · refine ⟨h.collect.state, hsheds, h.collections_collect, ?_, fun _ => ⟨r, rfl, hgains⟩, ?_⟩
    · rw [tracedCalls_append, tracedCalls_collect]
      rfl
    · exact fun hlack => absurd hlack hroom
  · exact fun x o ho hx => hgains.kept (hsheds.kept ho hx)

theorem WellFormed.onDemand_exhausted (hw : h.WellFormed) (few : h.objectCount < slotLimit)
    (full : h.slotFor? (h.charge q) = none)
    (still : h.collect.state.slotFor? (h.charge q) = none) :
    h.OnDemand q ⟨.reference (.error (.outOfMemory (h.charge q))), h.collect.state,
      h.collect.events ++ [.alloc (.failed (h.charge q)),
        .notice (.outOfMemory (h.charge q) q.cls.descriptor)]⟩ := by
  have hover := (slotFor?_eq_none_iff few _).mp full
  have hlack := (hw.slotFor?_collect_eq_none_iff few _).mp still
  have hsheds := hw.sheds_collect
  refine ⟨fun hfit => absurd hover (Nat.not_lt_of_le hfit), fun _ => ?_, ?_⟩
  · refine ⟨h.collect.state, hsheds, h.collections_collect, ?_, fun hfit => ?_,
      fun _ => ⟨rfl, rfl⟩⟩
    · rw [tracedCalls_append, tracedCalls_collect]
      rfl
    · exact absurd hlack (Nat.not_lt_of_le hfit)
  · exact fun x o ho hx => hsheds.kept ho hx

/-- **Allocation is on demand.**  Of a heap that can still name another object, a request that
fits is granted without a collection; any other request collects once, is granted if it fits
without the condemned objects, and is refused for lack of memory if it does not. -/
theorem allocation_on_demand {op : HeapOp} (reached : h.Reachable)
    (few : h.objectCount < slotLimit) (asked : op.request? = some q) :
    h.OnDemand q (op.perform h) := by
  have hw := reached.wellFormed
  have hstep := op.perform_step h
  generalize op.perform h = out at hstep
  cases hstep with
  | placed asked' fits =>
      cases asked.symm.trans asked'
      exact hw.onDemand_placed fits
  | replaced asked' full fits =>
      cases asked.symm.trans asked'
      exact hw.onDemand_replaced few full fits
  | exhausted asked' full still =>
      cases asked.symm.trans asked'
      exact hw.onDemand_exhausted few full still
  -- the others are no requests for an object
  | noArray kind =>
      simp only [HeapOp.request?, kind] at asked
      cases asked
  | noInstance kind =>
      simp only [HeapOp.request?, kind] at asked
      cases asked
  | freed | notFreed | released | untracked | collected | stored | notStored => cases asked
  | tookOutside | refusedOutside | gaveOutside => cases asked

end

end Heap

/-- The class of arrays of numbers. -/
def Class.numbers : Class := { descriptor := "[I", kind := .array .int, initialized := true }

/-- A heap of two arrays, one of them released twice; a third one has been released and freed. -/
def Sample.litteredHeap : Heap :=
  let one : HeapOp := .allocateArray .numbers 1 true
  let first : ObjectRef := ⟨0, slotLimit_pos⟩
  let second : ObjectRef := ⟨1, one_lt_slotLimit⟩
  (Heap.empty { limit := 60 }).after
    [one, one, one, .release first, .release second, .release first, .free second]

namespace Heap

/-- An array that does not fit makes the heap collect, and the bytes of the array that was released
twice come back once. -/
theorem allocation_on_demand_littered :
    let h := Sample.litteredHeap
    let q : AllocRequest := ⟨Class.numbers, 2, 8, false⟩
    let out := (HeapOp.allocateArray Class.numbers 2 false).perform h
    h.Reachable ∧ h.objectCount < slotLimit ∧ h.used = 40 ∧ h.condemnedBytes = 20 ∧
      tracedCalls out.events = Pass.collection.calls ∧
      ∃ left r, h.Sheds h.condemned left ∧ out.value = .reference (.ok r) ∧
        left.Gains q 24 r out.state := by
  intro h q out
  have hreached : h.Reachable := (Reachable.empty _).after _
  have hfew : h.objectCount < slotLimit := by decide +kernel
  have hbytes : h.condemnedBytes = 20 := by decide +kernel
  have hdemand : h.OnDemand q out := allocation_on_demand hreached hfew rfl
  obtain ⟨left, hsheds, -, htraced, hgranted, -⟩ := hdemand.collecting (by decide +kernel)
  obtain ⟨r, hvalue, hgains⟩ := hgranted (by decide +kernel)
  exact ⟨hreached, hfew, by decide +kernel, hbytes, htraced, left, r, hsheds, hvalue, hgains⟩

/-! ### Charges -/

/-- Counting what is too large as the largest size on the way comes to the same as doing it at the
end. -/
theorem addSize_mulSize (a b c : Nat) : addSize a (mulSize b c) = min (a + b * c) maxSize := by
  unfold addSize mulSize
  omega

/-- The bytes in use are those of one object and those of the others. -/
theorem WellFormed.bytesBesides_add {h : Heap} (hw : h.WellFormed) {r : ObjectRef} {o : HeapObject}
    (ho : h.object? r = some o) : h.bytesBesides r + o.size = h.used := by
  have hslot : h.objects.toList[r.slot]? = some (some o) := by
    rw [Array.getElem?_toList]
    exact object?_eq_some_iff.mp ho
  obtain ⟨xs, ys, hall, hothers⟩ := reduceOption_set hslot none
  rw [bytesBesides, hothers, hw.used_eq, live, hall]
  simp only [Option.toList_none, Option.toList_some, List.append_nil, List.map_append,
    List.map_cons, List.map_nil, List.sum_append, List.sum_cons, List.sum_nil]
  omega

/-- A granted request is charged for. -/
theorem WellFormed.size_granted {h : Heap} (hw : h.WellFormed) {op : HeapOp} {q : AllocRequest}
    {r : ObjectRef} (asked : op.request? = some q)
    (granted : (op.perform h).value.reference? = some r) :
    ∃ o, (op.perform h).state.object? r = some o ∧ o.size = h.charge q := by
  have hstep := op.perform_step h
  generalize op.perform h = out at hstep granted
  cases hstep with
  | placed asked' fits =>
      cases asked.symm.trans asked'
      cases granted
      exact ⟨_, by rw [(hw.gains_placed fits).objects, if_pos rfl], rfl⟩
  | replaced asked' full fits =>
      cases asked.symm.trans asked'
      cases granted
      refine ⟨_, by rw [(hw.collect.gains_placed fits).objects, if_pos rfl], ?_⟩
      exact h.charge_collect q
  | _ => cases granted

/-- **A granted array fits**, and is charged its exact size, if and only if that is a size.  What is
larger than the largest size is granted only where that is the limit and no other bytes are
charged. -/
theorem granted_array_fits_iff {h : Heap} {cls : Class} {length : Nat} {track : Bool}
    {r : ObjectRef} (reached : h.Reachable) (word : h.settings.limit ≤ maxSize)
    (granted : (h.allocateArray cls length track).value = .ok r) :
    let h' := (h.allocateArray cls length track).state
    ∃ element o, cls.element? = some element ∧ h'.object? r = some o ∧
      let due := h.settings.headerSize + length * element.width
      ((due + h'.bytesBesides r ≤ h.settings.limit ∧ o.size = due) ↔ due ≤ maxSize) ∧
      (maxSize < due →
        o.size = maxSize ∧ h'.bytesBesides r = 0 ∧ h.settings.limit = maxSize) := by
  intro h'
  have hw := reached.wellFormed
  have hanswer : ((HeapOp.allocateArray cls length track).perform h).value.reference? = some r := by
    simp only [HeapOp.perform, granted]
    rfl
  cases helement : cls.element? with
  | none =>
      simp only [allocateArray, helement] at granted
      cases granted
  | some element =>
      have asked : (HeapOp.allocateArray cls length track).request? =
          some ⟨cls, length, mulSize length element.width, track⟩ := by
        simp only [HeapOp.request?, helement, Option.map_some]
      obtain ⟨o, ho, hsize⟩ := hw.size_granted asked hanswer
      rw [charge, addSize_mulSize] at hsize
      have hw' : h'.WellFormed := hw.perform (.allocateArray cls length track)
      have hsettings : h'.settings = h.settings :=
        settings_perform (.allocateArray cls length track) h
      have hsum : h'.bytesBesides r + o.size = h'.used := hw'.bytesBesides_add ho
      have hlimit : h'.used ≤ h.settings.limit := hsettings ▸ hw'.used_le
      refine ⟨element, o, rfl, ho, ⟨fun hfits => ?_, fun hword => ?_⟩, fun hover => ?_⟩
      · omega
      · omega
      · omega

/-- Next to another array, the bytes of both are within the limit. -/
theorem granted_array_fits_beside :
    let h := (Heap.empty { limit := 50 }).after [.allocateArray Class.numbers 2 true]
    let r : ObjectRef := ⟨1, one_lt_slotLimit⟩
    let h' := (h.allocateArray Class.numbers 2 true).state
    h.Reachable ∧ h.settings.limit ≤ maxSize ∧
      (h.allocateArray Class.numbers 2 true).value = .ok r ∧
      16 + 2 * 4 + h'.bytesBesides r ≤ 50 ∧ h'.bytesAt r = 16 + 2 * 4 := by
  intro h r h'
  have hreached : h.Reachable := (Reachable.empty _).after _
  have hword : h.settings.limit ≤ maxSize := by decide +kernel
  have hgranted : (h.allocateArray Class.numbers 2 true).value = .ok r := rfl
  obtain ⟨element, o, helement, ho, hfits, -⟩ := granted_array_fits_iff hreached hword hgranted
  cases helement
  obtain ⟨hwithin, hsize⟩ := hfits.mpr (by decide +kernel)
  refine ⟨hreached, hword, hgranted, hwithin, ?_⟩
  rw [bytesAt, ho]
  exact hsize

/-- **An array larger than the limit is granted.**  Its header alone takes all that the heap may
hold, and its elements are not charged. -/
theorem oversized_array_granted :
    let h := Heap.empty { limit := maxSize, headerSize := maxSize }
    let r : ObjectRef := ⟨0, slotLimit_pos⟩
    let out := h.allocateArray Class.numbers 1 true
    out.value = .ok r ∧ h.settings.limit < h.settings.headerSize + 1 * ElementType.int.width ∧
      out.state.bytesAt r = h.settings.limit := by
  decide +kernel

end Heap

end TracedMachine
