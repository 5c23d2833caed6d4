import TracedMachine.Proofs.Heap.Allocation
import TracedMachine.Proofs.Machine.Thrown

/-!
# Proofs — Machine — Spilled

What an instruction leaves in the heap when it throws.  Nearly all that an instruction needs is
checked before it changes anything.  The one check that comes late is that of the register which
takes a new array: the array is there by then, and nothing refers to it.

**Spilling** (`Machine.throwing_allocates_nothing_iff`).  A step that throws leaves only objects
that were there before it, and no more bytes in use, if and only if it does not *spill*
(`Machine.Spills`): the heap grants an array for a register that the frame does not have.

That an object was there before means more than that its reference named one: a step may collect
an object and put another one into its slot.  So the object has to live through what the step asks
of the heap (`Heap.LivesThrough`).  On the heap alone this says that a request has made nothing,
which is so exactly if it was granted no reference (`WellFormed.makes_nothing_iff`).
-/

namespace TracedMachine

namespace Heap

/-- **What makes nothing.**  After an operation there are only objects that have lived through it,
and no more bytes in use, exactly if it was not granted an object. -/
theorem WellFormed.makes_nothing_iff {h : Heap} (hw : h.WellFormed) (op : HeapOp) :
    ((∀ r, ((op.perform h).state.object? r).isSome → LivesThrough r h [op]) ∧
        (op.perform h).state.used ≤ h.used) ↔
      (op.perform h).value.reference? = none := by
  have hlives : ∀ r, LivesThrough r h [op] ↔ (h.object? r).isSome ∧
      (.passBegan .collection ∈ (op.perform h).events → (h.collect.state.object? r).isSome) ∧
      ((op.perform h).state.object? r).isSome := by
    intro r
    rw [livesThrough_cons, livesThrough_nil]
    rfl
  constructor
  · rintro ⟨hold, -⟩
    by_contra hgranted
    obtain ⟨r, hr⟩ := Option.ne_none_iff_exists'.mp hgranted
    obtain ⟨hborn, hvacant⟩ := born hw hr
    obtain ⟨hbefore, hcollected, -⟩ := (hlives r).mp (hold r hborn)
    -- a new object has come into an empty slot, before or after the collection
    rcases hvacant with hnone | ⟨hcollects, hnone⟩
    · rw [hnone] at hbefore
      cases hbefore
    · have hthere := hcollected hcollects
      rw [hnone] at hthere
      cases hthere
  · simp only [hlives]
    have hcollect : ∀ r, (h.collect.state.object? r).isSome → (h.object? r).isSome := by
      intro r hr
      rw [object?_collect] at hr
      split at hr
      · cases hr
      · exact hr
    have hused : h.collect.state.used ≤ h.used := Nat.le.intro hw.used_collect
    have hstep := op.perform_step h
    generalize op.perform h = out at hstep
    intro hnone
    cases hstep with
    | placed | replaced => cases hnone
    | exhausted | collected => exact ⟨fun r hr => ⟨hcollect r hr, fun _ => hr, hr⟩, hused⟩
    | noArray | noInstance | notFreed | notStored =>
        exact ⟨fun r hr => ⟨hr, fun hc => absurd hc List.not_mem_nil, hr⟩, Nat.le_refl _⟩
    | released | untracked =>
        exact ⟨fun r hr => ⟨hr, fun hc => absurd hc List.not_mem_nil, hr⟩, Nat.le_refl _⟩
    | tookOutside | refusedOutside | gaveOutside =>
        exact ⟨fun r hr => ⟨hr, fun hc => by simp at hc, hr⟩, Nat.le_refl _⟩
    | @freed x o h' found =>
        refine ⟨fun r hr => ⟨?_, fun hc => by simp at hc, hr⟩, ?_⟩
        · rw [object?_remove found] at hr
          split at hr
          · cases hr
          · exact hr
        · rw [state_of_remove found]
          exact Nat.sub_le _ _
    | @stored x index i w valid =>
        refine ⟨fun r hr => ⟨?_, fun hc => absurd hc List.not_mem_nil, hr⟩, Nat.le_refl _⟩
        rw [object?_store] at hr
        split at hr
        · next hx =>
          rw [Option.isSome_map] at hr
          rwa [hx]
        · exact hr

end Heap

/-- An array that the heap grants is put into its register, if there is one. -/
theorem Store.newArray_granted {s : Store} {f : Frame} {dst : UInt8} {n : Int32}
    {classIndex : UInt16} {op : HeapOp} {r : ObjectRef}
    (asked : s.newArrayOp? f n classIndex = some op)
    (granted : (op.perform s.heap).value.reference? = some r) :
    (s.newArray f dst n classIndex).value =
      (f.registers.check dst.toNat).map fun _ => r.toWord := by
  have hheap := s.heap_resolveClass f.home classIndex.toNat
  unfold newArrayOp? at asked
  unfold newArray
  by_cases hneg : n.toInt < 0
  · rw [if_pos hneg] at asked
    cases asked
  · rw [if_neg hneg] at asked ⊢
    dsimp only
    rw [hheap]
    cases hresolved : (s.resolveClass f.home classIndex.toNat).value with
    | error e =>
        rw [hresolved] at asked
        cases asked
    | ok c =>
        rw [hresolved] at asked
        cases asked
        dsimp only [HeapOp.perform] at granted ⊢
        cases hmade : (s.heap.allocateArray c n.toInt.toNat false).value with
        | error e =>
            rw [hmade] at granted
            cases granted
        | ok object =>
            rw [hmade] at granted
            cases granted
            cases f.registers.check dst.toNat <;> rfl

namespace Machine

/-- **The next instruction spills an array**: it makes one for a register that its frame does not
have, and the heap grants it. -/
inductive Spills (m : Machine) : Prop where
  | intro {f : Frame} {rest : List Frame} {dst length : UInt8} {classIndex : UInt16} {op : HeapOp}
      {r : ObjectRef} (frames : m.stack.frames = f :: rest)
      (code : decodeAt f.method.code f.pc = .ok (.newArray dst length classIndex))
      (past : f.registers.size ≤ dst.toNat)
      (asked : f.heapOp? m.store (.newArray dst length classIndex) = some op)
      (granted : (op.perform m.store.heap).value.reference? = some r) : m.Spills

variable {m : Machine} {t : Throwable}

/-- What spills is granted by the heap. -/
theorem Spills.granted (h : m.Spills) :
    ∃ op r, m.heapOp? = some op ∧ (op.perform m.store.heap).value.reference? = some r := by
  obtain ⟨frames, code, -, asked, granted⟩ := h
  refine ⟨_, _, ?_, granted⟩
  simp only [heapOp?, frames, code, asked]

/-- A step that throws although the heap has granted what it asked for spills. -/
theorem spills_of_granted {op : HeapOp} {r : ObjectRef} (thrown : m.step.value = .error t)
    (asked : m.heapOp? = some op) (granted : (op.perform m.store.heap).value.reference? = some r) :
    m.Spills := by
  unfold heapOp? at asked
  cases hf : m.stack.frames with
  | nil =>
      rw [hf] at asked
      cases asked
  | cons f rest =>
      rw [step_eq hf] at thrown
      simp only [hf] at asked
      cases hi : decodeAt f.method.code f.pc with
      | error e =>
          rw [hi] at asked
          cases asked
      | ok i =>
          simp only [hi] at asked thrown
          cases i with
          | newArray dst length classIndex =>
              refine .intro hf hi ?_ asked granted
              unfold Frame.heapOp? at asked
              cases hlength : f.registers.getInt length.toNat with
              | error e =>
                  simp only [hlength] at asked
                  cases asked
              | ok n =>
                  simp only [hlength] at asked
                  simp only [execute, hlength, newArray_eq, Store.newArray_granted asked granted,
                    Registers.check] at thrown
                  by_contra hlt
                  rw [if_pos (Nat.lt_of_not_le hlt)] at thrown
                  cases thrown
          | arrayPut src array index =>
              -- storing an element is granted no reference
              unfold Frame.heapOp? at asked
              dsimp only at asked
              split at asked
              · cases asked
                dsimp only [HeapOp.perform] at granted
                split at granted <;> cases granted
              · cases asked
          | _ => cases asked

/-- **Throwing allocates nothing, unless the array is spilled.**  The heap after a step is that
after what the step asks of it.  If the step throws, all objects in it have been there throughout,
and no more bytes are in use, if and only if the step does not spill. -/
theorem throwing_allocates_nothing_iff (reached : m.store.heap.Reachable)
    (thrown : m.step.value = .error t) :
    let h := m.store.heap
    let h' := m.step.state.store.heap
    h' = h.after m.heapOp?.toList ∧
      (((∀ r, (h'.object? r).isSome → Heap.LivesThrough r h m.heapOp?.toList) ∧ h'.used ≤ h.used) ↔
        ¬ m.Spills) := by
  intro h h'
  have hafter : h' = h.after m.heapOp?.toList := m.does_step.after_eq
  refine ⟨hafter, ?_⟩
  cases hop : m.heapOp? with
  | none =>
      rw [hafter, hop]
      have hquiet : ¬ m.Spills := by
        intro hspills
        obtain ⟨op, r, hasked, -⟩ := hspills.granted
        rw [hop] at hasked
        cases hasked
      refine iff_of_true ⟨fun r hr => ?_, Nat.le_refl _⟩ hquiet
      exact Heap.livesThrough_nil.mpr hr
  | some op =>
      rw [hafter, hop]
      refine (reached.wellFormed.makes_nothing_iff op).trans
        ⟨fun hnone hspills => ?_, fun hquiet => ?_⟩
      · obtain ⟨op', r, hasked, hgranted⟩ := hspills.granted
        cases hop.symm.trans hasked
        rw [hnone] at hgranted
        cases hgranted
      · by_contra hgranted
        obtain ⟨r, hr⟩ := Option.ne_none_iff_exists'.mp hgranted
        exact hquiet (spills_of_granted thrown hop hr)

end Machine

namespace Sample

/-- A machine about to make an array of numbers in a frame of one register, which holds the
length. -/
def making (dst : UInt8) (length : Word) (heap : Heap) : Machine :=
  let home : Module := { cache := 0, classRefs := #["[I"], methods := #[] }
  let make : Method := { Demo.method "make" "()V" 1 0 [.newArray dst 0 0] [] with id := ⟨4⟩ }
  { stack := { frames := [{ home, method := make, pc := 0, registers := ⟨#[length]⟩ }], limit := 8 }
    store := { heap } }

end Sample

namespace Machine

/-- An array that does not fit costs the heap the released array, and leaves nothing new. -/
theorem throwing_allocates_nothing_full :
    let m := Sample.making 0 10 Sample.fullHeap
    m.store.heap.Reachable ∧ m.step.value = .error (.outOfMemory 56) ∧ ¬ m.Spills ∧
      ∀ r, (m.step.state.store.heap.object? r).isSome →
        Heap.LivesThrough r m.store.heap m.heapOp?.toList := by
  intro m
  have hreached : m.store.heap.Reachable := (Heap.Reachable.empty _).after _
  have hthrown : m.step.value = .error (.outOfMemory 56) := rfl
  have hquiet : ¬ m.Spills := by
    rintro ⟨frames, code, past, -, -⟩
    cases frames
    cases code
    exact absurd past (by decide)
  exact ⟨hreached, hthrown, hquiet,
    ((throwing_allocates_nothing_iff hreached hthrown).2.mpr hquiet).1⟩

/-- **A thrown array stays.**  The instruction throws for want of the register, and the heap, which
was empty, holds the array. -/
theorem thrown_array_stays :
    let m := Sample.making 9 1 (Heap.empty { limit := 100 })
    let r : ObjectRef := ⟨0, slotLimit_pos⟩
    m.step.value = .error (.verify (.registerOutOfRange 9 1)) ∧
      m.store.heap.object? r = none ∧ (m.step.state.store.heap.object? r).isSome ∧
      m.store.heap.used = 0 ∧ m.step.state.store.heap.used = 20 := by
  refine ⟨rfl, ?_, ?_, ?_, ?_⟩ <;> decide +kernel

end Machine

end TracedMachine
