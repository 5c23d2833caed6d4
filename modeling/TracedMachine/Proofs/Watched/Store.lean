import TracedMachine.Proofs.Machine.Passes
import TracedMachine.Proofs.Watched.Work

/-!
# Proofs — Watched — Store

The heap and the classes, watched.  A collection counts each object that it frees, and an allocation
each object that it makes or cannot make; whatever is counted is counted twice, once for the process
and once for the thread.  A collection and the preparation of a class are shown to the profiler when
they begin and when they end.

Each operation is transparent, and it is the operation of the same name that lists its events.
-/

namespace TracedMachine

namespace Work

/-! ### The heap -/

/-- Empties the slots of those objects that are there, and adds up their number and their bytes. -/
def reclaim : List ObjectRef → (count bytes : Nat) → Work Heap (Nat × Nat)
  | [], count, bytes => return (count, bytes)
  | r :: rs, count, bytes => do
    match (← state).remove r with
    | none => reclaim rs count bytes
    | some (o, h) =>
      change fun _ => h
      countForProcess (.freed o.size)
      countForThread (.freed o.size)
      reclaim rs (count + 1) (bytes + o.size)

/-- Removes all released objects, and gives the bytes they took. -/
def collect : Work Heap Nat := do
  tellProfiler (.passBegan .collection)
  let garbage := (← state).garbage
  change fun h => { h with garbage := #[] }
  let (count, bytes) ← reclaim garbage.toList 0 0
  change fun h => { h with collections := h.collections + 1 }
  countForProcess .collected
  countForThread .collected
  tellProfiler (.passEnded .collection)
  tellLog (.reclaimed count bytes)
  return bytes

/-- Puts an object into the next slot, if it fits. -/
def tryAllocate (cls : Class) (slots size : Nat) (track : Bool) : Work Heap (Option ObjectRef) := do
  match (← state).slotFor? size with
  | none => return none
  | some r =>
    change fun h => h.place r cls slots size track
    return some r

/-- Puts an object into the next slot, after a collection if it does not fit at once. -/
def findRoom (cls : Class) (slots size : Nat) (track : Bool) : Work Heap ObjectRef := do
  match ← tryAllocate cls slots size track with
  | some r => return r
  | none =>
    let _ ← collect
    match ← tryAllocate cls slots size track with
    | some r => return r
    | none =>
      countForProcess (.failed size)
      countForThread (.failed size)
      tellLog (.outOfMemory size cls.descriptor)
      throw (.outOfMemory size)

/-- Allocates an object whose contents take `size` bytes. -/
def allocate (cls : Class) (slots size : Nat) (track : Bool) : Work Heap ObjectRef := do
  let charged := addSize (← state).settings.headerSize size
  let r ← findRoom cls slots charged track
  countForProcess (.allocated charged)
  countForThread (.allocated charged)
  return r

/-- Allocates an array of zeros. -/
def allocateArray (cls : Class) (length : Nat) (track : Bool) : Work Heap ObjectRef :=
  match cls.element? with
  | none => throw (.verify (.notArrayClass cls.descriptor))
  | some element => allocate cls length (mulSize length element.width) track

/-- Allocates an object whose fields are zero. -/
def allocateInstance (cls : Class) (track : Bool) : Work Heap ObjectRef :=
  match cls.kind with
  | .array _ => throw (.verify (.notInstantiable cls.descriptor))
  | .instances fields => allocate cls fields (mulWrapped fields 4) track

/-- Frees an object at once, and gives the bytes it took. -/
def freeObject (r : ObjectRef) : Work Heap Nat := do
  match (← state).remove r with
  | none => throw (Heap.stale r)
  | some (o, h) =>
    change fun _ => h
    countForProcess (.freed o.size)
    countForThread (.freed o.size)
    return o.size

/-- Accounts for memory allocated outside the heap, and says whether it fits. -/
def externalAlloc (bytes : Nat) : Work Heap Bool := do
  let h ← state
  if h.externalUsed + bytes ≤ h.settings.externalLimit then
    change fun h => { h with externalUsed := h.externalUsed + bytes }
    countForProcess (.externalAllocated bytes)
    countForThread (.externalAllocated bytes)
    return true
  else
    countForProcess (.externalFailed bytes)
    countForThread (.externalFailed bytes)
    return false

/-- Accounts for memory freed outside the heap. -/
def externalFree (bytes : Nat) : Work Heap Unit := do
  change fun h => { h with externalUsed := h.externalUsed - bytes }
  countForProcess (.externalFreed bytes)
  countForThread (.externalFreed bytes)

/-- Stores an element of an array, or a field of another object. -/
def arrayPut (r : ObjectRef) (index : Int32) (w : Word) : Work Heap Unit := do
  let h ← ofExcept ((← state).arrayPut r index w)
  change fun _ => h

/-- Does an operation on the heap, and answers as the heap does. -/
def heapOp : HeapOp → Work Heap HeapAnswer
  | .allocate cls slots size track =>
    return .reference (← (allocate cls slots size track).attempt)
  | .allocateArray cls length track =>
    return .reference (← (allocateArray cls length track).attempt)
  | .allocateInstance cls track => return .reference (← (allocateInstance cls track).attempt)
  | .free r => return .freed (← (freeObject r).attempt)
  | .release r => do
    change fun h => h.release r
    return .done
  | .releaseTracked r => do
    let (was, h) := (← state).releaseTracked r
    change fun _ => h
    return .untracked was
  | .collect => return .reclaimed (← collect)
  | .put r index w => return .stored (← (arrayPut r index w).attempt)
  | .externalAlloc bytes => return .outside (← externalAlloc bytes)
  | .externalFree bytes => do
    externalFree bytes
    return .done

namespace Transparent

theorem reclaim (rs : List ObjectRef) (count bytes : Nat) :
    (Work.reclaim rs count bytes).Transparent := by
  induction rs generalizing count bytes with
  | nil => exact .pure _
  | cons r rs ih =>
      unfold Work.reclaim
      refine .bind .state fun h => ?_
      cases h.remove r with
      | none => exact ih count bytes
      | some found =>
          refine .bind (.change _) fun _ => .bind (.countForProcess _) fun _ => ?_
          exact .bind (.countForThread _) fun _ => ih _ _

theorem collect : Work.collect.Transparent := by
  refine .bind (.tellProfiler _) fun _ => .bind .state fun h => .bind (.change _) fun _ => ?_
  refine .bind (.reclaim h.garbage.toList 0 0) fun counted => .bind (.change _) fun _ => ?_
  refine .bind (.countForProcess _) fun _ => .bind (.countForThread _) fun _ => ?_
  exact .bind (.tellProfiler _) fun _ => .bind (.tellLog _) fun _ => .pure counted.2

theorem tryAllocate (cls : Class) (slots size : Nat) (track : Bool) :
    (Work.tryAllocate cls slots size track).Transparent := by
  refine .bind .state fun h => ?_
  cases h.slotFor? size with
  | none => exact .pure none
  | some r => exact .bind (.change _) fun _ => .pure (some r)

theorem findRoom (cls : Class) (slots size : Nat) (track : Bool) :
    (Work.findRoom cls slots size track).Transparent := by
  refine .bind (.tryAllocate cls slots size track) fun first => ?_
  cases first with
  | some r => exact .pure r
  | none =>
      refine .bind .collect fun _ => .bind (.tryAllocate cls slots size track) fun second => ?_
      cases second with
      | some r => exact .pure r
      | none =>
          refine .bind (.countForProcess _) fun _ => .bind (.countForThread _) fun _ => ?_
          exact .bind (.tellLog _) fun _ => .throw _

theorem allocate (cls : Class) (slots size : Nat) (track : Bool) :
    (Work.allocate cls slots size track).Transparent := by
  refine .bind .state fun h => .bind (.findRoom cls slots _ track) fun r => ?_
  exact .bind (.countForProcess _) fun _ => .bind (.countForThread _) fun _ => .pure r

theorem allocateArray (cls : Class) (length : Nat) (track : Bool) :
    (Work.allocateArray cls length track).Transparent := by
  unfold Work.allocateArray
  cases cls.element? with
  | none => exact .throw _
  | some element => exact .allocate cls length _ track

theorem allocateInstance (cls : Class) (track : Bool) :
    (Work.allocateInstance cls track).Transparent := by
  unfold Work.allocateInstance
  cases cls.kind with
  | array element => exact .throw _
  | instances fields => exact .allocate cls fields _ track

theorem freeObject (r : ObjectRef) : (Work.freeObject r).Transparent := by
  refine .bind .state fun h => ?_
  cases h.remove r with
  | none => exact .throw _
  | some found =>
      refine .bind (.change _) fun _ => .bind (.countForProcess _) fun _ => ?_
      exact .bind (.countForThread _) fun _ => .pure _

theorem externalAlloc (bytes : Nat) : (Work.externalAlloc bytes).Transparent := by
  refine .bind .state fun h => ?_
  split
  · refine .bind (.change _) fun _ => .bind (.countForProcess _) fun _ => ?_
    exact .bind (.countForThread _) fun _ => .pure true
  · exact .bind (.countForProcess _) fun _ => .bind (.countForThread _) fun _ => .pure false

theorem externalFree (bytes : Nat) : (Work.externalFree bytes).Transparent :=
  .bind (.change _) fun _ => .bind (.countForProcess _) fun _ => .countForThread _

theorem arrayPut (r : ObjectRef) (index : Int32) (w : Word) :
    (Work.arrayPut r index w).Transparent :=
  .bind .state fun _ => .bind (.ofExcept _) fun _ => .change _

/-- **Every operation on the heap is transparent.** -/
theorem heapOp (op : HeapOp) : (Work.heapOp op).Transparent := by
  cases op with
  | allocate cls slots size track =>
      exact .bind (.attempt (.allocate cls slots size track)) fun _ => .pure _
  | allocateArray cls length track =>
      exact .bind (.attempt (.allocateArray cls length track)) fun _ => .pure _
  | allocateInstance cls track =>
      exact .bind (.attempt (.allocateInstance cls track)) fun _ => .pure _
  | free r => exact .bind (.attempt (.freeObject r)) fun _ => .pure _
  | release r => exact .bind (.change _) fun _ => .pure _
  | releaseTracked r => exact .bind .state fun _ => .bind (.change _) fun _ => .pure _
  | collect => exact .bind .collect fun _ => .pure _
  | put r index w => exact .bind (.attempt (.arrayPut r index w)) fun _ => .pure _
  | externalAlloc bytes => exact .bind (.externalAlloc bytes) fun _ => .pure _
  | externalFree bytes => exact .bind (.externalFree bytes) fun _ => .pure _

end Transparent

section

variable (h : Heap) (o : Observers)

theorem run_reclaim (rs : List ObjectRef) (count bytes : Nat) :
    (reclaim rs count bytes).run ⟨h, o⟩ =
      let (sizes, h') := h.reclaim rs
      .ok (count + sizes.length, sizes.foldl (· + ·) bytes)
        ⟨h', (sizes.map fun n => Event.alloc (.freed n)).foldl Observers.observe o⟩ := by
  induction rs generalizing count bytes h o with
  | nil => rfl
  | cons r rs ih =>
      unfold reclaim Heap.reclaim
      simp only [EStateM.run_bind, run_state]
      cases h.remove r with
      | none => exact ih h o count bytes
      | some found =>
          simp only [EStateM.run_bind, run_change, run_countForProcess, run_countForThread, ih,
            List.length_cons, List.foldl_cons, Nat.add_assoc, Nat.add_comm 1]
          rfl

theorem run_collect : collect.run ⟨h, o⟩ = .ok h.collect.value (h.collect.shown o) := by
  unfold collect
  simp only [EStateM.run_bind, run_state, run_tellProfiler, run_change, run_reclaim,
    run_countForProcess, run_countForThread, run_tellLog, EStateM.run_pure]
  simp only [Nat.zero_add, Outcome.shown, Heap.collect, List.foldl_append, List.foldl_cons]
  rfl

theorem run_tryAllocate (cls : Class) (slots size : Nat) (track : Bool) :
    (tryAllocate cls slots size track).run ⟨h, o⟩ =
      match h.slotFor? size with
      | none => .ok none ⟨h, o⟩
      | some r => .ok (some r) ⟨h.place r cls slots size track, o⟩ := by
  unfold tryAllocate
  simp only [EStateM.run_bind, run_state]
  cases h.slotFor? size <;> rfl

theorem run_allocate (cls : Class) (slots size : Nat) (track : Bool) :
    (allocate cls slots size track).run ⟨h, o⟩ = (h.allocate cls slots size track).result o := by
  unfold allocate findRoom Heap.allocate
  simp only [EStateM.run_bind, run_state, run_tryAllocate]
  cases h.slotFor? (addSize h.settings.headerSize size) with
  | some r => rfl
  | none =>
      simp only [EStateM.run_bind, run_collect, Outcome.shown, run_tryAllocate]
      cases h.collect.state.slotFor? (addSize h.settings.headerSize size) with
      | some r =>
          simp only [Outcome.result, Outcome.shown, List.foldl_append]
          rfl
      | none =>
          simp only [Outcome.result, Outcome.shown, List.foldl_append]
          rfl

theorem run_allocateArray (cls : Class) (length : Nat) (track : Bool) :
    (allocateArray cls length track).run ⟨h, o⟩ = (h.allocateArray cls length track).result o := by
  unfold allocateArray Heap.allocateArray
  cases cls.element? with
  | none => rfl
  | some element => exact run_allocate h o cls length _ track

theorem run_allocateInstance (cls : Class) (track : Bool) :
    (allocateInstance cls track).run ⟨h, o⟩ = (h.allocateInstance cls track).result o := by
  unfold allocateInstance Heap.allocateInstance
  cases cls.kind with
  | array element => rfl
  | instances fields => exact run_allocate h o cls fields _ track

theorem run_freeObject (r : ObjectRef) :
    (freeObject r).run ⟨h, o⟩ = (h.freeObject r).result o := by
  unfold freeObject Heap.freeObject
  simp only [EStateM.run_bind, run_state]
  cases h.remove r <;> rfl

theorem run_externalAlloc (bytes : Nat) :
    (externalAlloc bytes).run ⟨h, o⟩ =
      .ok (h.externalAlloc bytes).value ((h.externalAlloc bytes).shown o) := by
  unfold externalAlloc Heap.externalAlloc
  simp only [EStateM.run_bind, run_state]
  split <;> rfl

theorem run_arrayPut (r : ObjectRef) (index : Int32) (w : Word) :
    (arrayPut r index w).run ⟨h, o⟩ =
      match h.arrayPut r index w with
      | .ok h => .ok () ⟨h, o⟩
      | .error t => .error t ⟨h, o⟩ := by
  unfold arrayPut
  simp only [EStateM.run_bind, run_state]
  cases h.arrayPut r index w <;> rfl

/-- **Every operation on the heap** answers, leaves and tells what the one that lists its events
answers, leaves and lists. -/
theorem run_heapOp (op : HeapOp) :
    (heapOp op).run ⟨h, o⟩ = .ok (op.perform h).value ((op.perform h).shown o) := by
  cases op with
  | allocate cls slots size track =>
      simp only [heapOp, EStateM.run_bind,
        run_attempt_result (run_allocate h o cls slots size track)]
      rfl
  | allocateArray cls length track =>
      simp only [heapOp, EStateM.run_bind,
        run_attempt_result (run_allocateArray h o cls length track)]
      rfl
  | allocateInstance cls track =>
      simp only [heapOp, EStateM.run_bind, run_attempt_result (run_allocateInstance h o cls track)]
      rfl
  | free r =>
      simp only [heapOp, EStateM.run_bind, run_attempt_result (run_freeObject h o r)]
      rfl
  | release r => rfl
  | releaseTracked r => rfl
  | collect =>
      simp only [heapOp, EStateM.run_bind, run_collect, HeapOp.perform]
      rfl
  | put r index w =>
      simp only [heapOp, EStateM.run_bind, run_attempt, run_arrayPut, HeapOp.perform]
      cases h.arrayPut r index w <;> rfl
  | externalAlloc bytes =>
      simp only [heapOp, EStateM.run_bind, run_externalAlloc, HeapOp.perform]
      rfl
  | externalFree bytes => rfl

end

/-! ### Classes -/

/-- Works on the classes of a store. -/
def onClasses {α : Type} (x : Work ClassTable α) : Work Store α :=
  x.onPart Store.classes fun s classes => { s with classes }

/-- Makes a class.  A class that is there already stays as it is. -/
def prepare (descriptor : String) (kind : ClassKind) : Work ClassTable Class := do
  tellProfiler (.passBegan .classPreparation)
  match (← state).get? descriptor with
  | some c =>
    tellProfiler (.passEnded .classPreparation)
    return c
  | none =>
    tellLog (.preparing descriptor)
    let c : Class := { descriptor, kind, initialized := true }
    change fun t => ⟨t.classes ++ [c]⟩
    tellProfiler (.passEnded .classPreparation)
    return c

/-- Defines a class with instances.  A class that is there already stays as it is. -/
def define (descriptor : String) (fields : Nat) : Work ClassTable Class := do
  match (← state).get? descriptor with
  | some c => return c
  | none => prepare descriptor (.instances fields)

/-- The class with a descriptor, given by its characters; array classes are made if they are not
there, those of their elements first. -/
def findChars (chars : List Char) : Work ClassTable Class := do
  let descriptor := String.ofList chars
  match (← state).get? descriptor with
  | some c => return c
  | none =>
    match chars with
    | '[' :: rest =>
      match ElementType.ofDescriptor? rest with
      | none => throw (.noClass descriptor)
      | some element =>
        if element.isPrimitive then prepare descriptor (.array element)
        else
          let _ ← findChars rest
          prepare descriptor (.array element)
    | _ => throw (.noClass descriptor)

/-- The class a module refers to by number. -/
def resolveClass (m : Module) (index : Nat) : Work Store Class := do
  match (← state).cached? m index with
  | some c => return c
  | none =>
    match m.classRefs[index]? with
    | none => throw (.verify (.classIndexOutOfRange index))
    | some descriptor =>
      let c ← onClasses (findChars descriptor.toList)
      change fun s => s.cacheClass m index c
      return c

namespace Transparent

theorem prepare (descriptor : String) (kind : ClassKind) :
    (Work.prepare descriptor kind).Transparent := by
  refine .bind (.tellProfiler _) fun _ => .bind .state fun t => ?_
  cases t.get? descriptor with
  | some c => exact .bind (.tellProfiler _) fun _ => .pure c
  | none =>
      refine .bind (.tellLog _) fun _ => .bind (.change _) fun _ => ?_
      exact .bind (.tellProfiler _) fun _ => .pure _

theorem define (descriptor : String) (fields : Nat) :
    (Work.define descriptor fields).Transparent := by
  refine .bind .state fun t => ?_
  cases t.get? descriptor with
  | some c => exact .pure c
  | none => exact .prepare descriptor _

theorem findChars (chars : List Char) : (Work.findChars chars).Transparent := by
  -- the class of the elements is looked for in the rest of the descriptor
  induction chars with
  | nil =>
      unfold Work.findChars
      refine .bind .state fun t => ?_
      split
      · exact .pure _
      · exact .throw _
  | cons first rest ih =>
      unfold Work.findChars
      refine .bind .state fun t => ?_
      split
      · exact .pure _
      · split
        · next heq =>
          cases heq
          split
          · exact .throw _
          · split
            · exact .prepare _ _
            · exact .bind ih fun _ => .prepare _ _
        · exact .throw _

theorem onClasses {α : Type} {x : Work ClassTable α} (hx : x.Transparent) :
    x.onClasses.Transparent :=
  hx.onPart _ _

theorem resolveClass (m : Module) (index : Nat) : (Work.resolveClass m index).Transparent := by
  refine .bind .state fun s => ?_
  split
  · exact .pure _
  · split
    · exact .throw _
    · next descriptor _ =>
      refine .bind (.onClasses (.findChars descriptor.toList)) fun c => ?_
      exact .bind (.change _) fun _ => .pure c

end Transparent

section

variable (t : ClassTable) (o : Observers)

theorem run_prepare (descriptor : String) (kind : ClassKind) :
    (prepare descriptor kind).run ⟨t, o⟩ =
      .ok (t.prepare descriptor kind).value ((t.prepare descriptor kind).shown o) := by
  unfold prepare ClassTable.prepare
  simp only [EStateM.run_bind, run_tellProfiler, run_state]
  cases t.get? descriptor <;> rfl

theorem run_define (descriptor : String) (fields : Nat) :
    (define descriptor fields).run ⟨t, o⟩ =
      .ok (t.define descriptor fields).value ((t.define descriptor fields).shown o) := by
  unfold define ClassTable.define
  simp only [EStateM.run_bind, run_state]
  cases t.get? descriptor with
  | some c => rfl
  | none => exact run_prepare t o descriptor _

theorem run_findChars (chars : List Char) :
    (findChars chars).run ⟨t, o⟩ = (t.findChars chars).result o := by
  fun_induction ClassTable.findChars t chars with
  | case1 chars descriptor c hsome =>
      unfold findChars
      simp only [EStateM.run_bind, run_state]
      rw [hsome]
      rfl
  | case2 rest helement descriptor hnone =>
      unfold findChars
      simp only [EStateM.run_bind, run_state]
      rw [hnone, helement]
      rfl
  | case3 rest element helement hprimitive descriptor hnone made =>
      unfold findChars
      simp only [EStateM.run_bind, run_state]
      rw [hnone, helement]
      simp only [if_pos hprimitive, run_prepare]
      rfl
  | case4 rest element helement hprimitive found e hvalue descriptor hnone ih =>
      unfold findChars
      simp only [EStateM.run_bind, run_state]
      rw [hnone, helement]
      simp only [if_neg hprimitive, EStateM.run_bind, ih, Outcome.result]
      rw [hvalue]
      rfl
  | case5 rest element helement hprimitive found c hvalue descriptor hnone made ih =>
      unfold findChars
      simp only [EStateM.run_bind, run_state]
      rw [hnone, helement]
      simp only [if_neg hprimitive, EStateM.run_bind, ih, Outcome.result]
      rw [hvalue]
      simp only [Outcome.shown, run_prepare, List.foldl_append]
      rfl
  | case6 chars descriptor hnone hother =>
      unfold findChars
      simp only [EStateM.run_bind, run_state]
      rw [hnone]
      rfl

end

theorem run_resolveClass (s : Store) (o : Observers) (m : Module) (index : Nat) :
    (resolveClass m index).run ⟨s, o⟩ = (s.resolveClass m index).result o := by
  unfold resolveClass Store.resolveClass
  simp only [EStateM.run_bind, run_state]
  cases s.cached? m index with
  | some c => rfl
  | none =>
      cases m.classRefs[index]? with
      | none => rfl
      | some descriptor =>
          simp only [EStateM.run_bind, onClasses, run_onPart, run_findChars, Outcome.result,
            ClassTable.find]
          cases (s.classes.findChars descriptor.toList).value <;> rfl

end Work

end TracedMachine
