import TracedMachine.Proofs.Heap.Operations
import TracedMachine.Proofs.Machine.Step
import TracedMachine.Proofs.Recorder.Brackets

/-!
# Proofs — Machine — Passes

What the store reports of its own work.  A trace shows of it collections and preparations of
classes, one after the other and never inside each other: each has ended before the next begins,
and all of them before the instruction does that they were for (`ShowsPasses`).  So the store's work
leaves the open calls as they are (`ShowsPasses.balanced`), and names synthetic methods only
(`ShowsPasses.synthetic`).
-/

namespace TracedMachine

/-- The two calls that show a pass. -/
def Pass.calls (p : Pass) : List MethodEvent := [⟨p.method, .enter⟩, ⟨p.method, .exit⟩]

/-- A trace shows passes of events, one after the other, and nothing else. -/
def ShowsPasses (es : List Event) : Prop :=
  ∃ passes : List Pass, tracedCalls es = passes.flatMap Pass.calls

namespace ShowsPasses

variable {es more : List Event}

theorem append (h : ShowsPasses es) (hmore : ShowsPasses more) : ShowsPasses (es ++ more) := by
  obtain ⟨passes, hpasses⟩ := h
  obtain ⟨others, hothers⟩ := hmore
  exact ⟨passes ++ others, by rw [tracedCalls_append, hpasses, hothers, List.flatMap_append]⟩

/-- Events that no trace shows. -/
theorem silent (h : tracedCalls es = []) : ShowsPasses es := ⟨[], h⟩

/-- An event that no trace shows does not matter. -/
theorem skip {e : Event} (h : e.call? = none) (hes : ShowsPasses es) : ShowsPasses (e :: es) := by
  have hfirst : ShowsPasses [e] := silent (List.filterMap_cons_none h)
  exact hfirst.append hes

/-- A pass around what no trace shows. -/
theorem pass (p : Pass) (h : tracedCalls es = []) :
    ShowsPasses (.passBegan p :: es ++ [.passEnded p]) := by
  refine ⟨[p], ?_⟩
  rw [List.cons_append]
  show ⟨p.method, .enter⟩ :: tracedCalls (es ++ [.passEnded p]) = _
  rw [tracedCalls_append, h]
  rfl

/-- Passes leave the open calls as they are. -/
theorem balanced (h : ShowsPasses es) : Balanced es := by
  intro opened
  obtain ⟨passes, hpasses⟩ := h
  rw [Bracketed, hpasses]
  clear hpasses
  induction passes with
  | nil => rfl
  | cons p passes ih =>
      rw [List.flatMap_cons, openCalls_append]
      have hpass : openCalls opened p.calls = some opened := by
        rw [Pass.calls, openCalls_cons]
        exact Option.bind_eq_some_iff.mpr
          ⟨p.method :: opened, rfl, Bracketed.leave p.method Action.noConfusion opened⟩
      rw [hpass]
      exact ih

/-- The methods of passes are the synthetic ones. -/
theorem synthetic (h : ShowsPasses es) {c : MethodEvent} (hc : c ∈ tracedCalls es) :
    c.method = .collection ∨ c.method = .classPreparation := by
  obtain ⟨passes, hpasses⟩ := h
  rw [hpasses] at hc
  obtain ⟨p, -, hc⟩ := List.mem_flatMap.mp hc
  have hcall : c = ⟨p.method, .enter⟩ ∨ c = ⟨p.method, .exit⟩ := by simpa [Pass.calls] using hc
  have hmethod : c.method = p.method := by rcases hcall with rfl | rfl <;> rfl
  rw [hmethod]
  cases p with
  | collection => exact .inl rfl
  | classPreparation => exact .inr rfl

end ShowsPasses

/-! ### The heap -/

namespace Heap

/-- A trace shows one pass of a collection. -/
theorem tracedCalls_collect (h : Heap) : tracedCalls h.collect.events = Pass.collection.calls := by
  have hfreed : ∀ sizes : List Nat,
      tracedCalls (sizes.map fun n => Event.alloc (.freed n)) = [] := by
    intro sizes
    induction sizes with
    | nil => rfl
    | cons n sizes ih => exact ih
  unfold collect
  dsimp only
  rw [tracedCalls_append]
  show ⟨Pass.collection.method, .enter⟩ :: tracedCalls (List.map _ _) ++ _ = _
  rw [hfreed]
  rfl

theorem showsPasses_collect (h : Heap) : ShowsPasses h.collect.events :=
  ⟨[.collection], h.tracedCalls_collect⟩

theorem showsPasses_allocate (h : Heap) (cls : Class) (slots size : Nat) (track : Bool) :
    ShowsPasses (h.allocate cls slots size track).events := by
  unfold allocate
  dsimp only
  split
  · exact .silent rfl
  · split
    · exact h.showsPasses_collect.append (.silent rfl)
    · exact h.showsPasses_collect.append (.silent rfl)

theorem showsPasses_allocateArray (h : Heap) (cls : Class) (length : Nat) (track : Bool) :
    ShowsPasses (h.allocateArray cls length track).events := by
  unfold allocateArray
  split
  · exact .silent rfl
  · exact h.showsPasses_allocate cls length _ track

theorem showsPasses_allocateInstance (h : Heap) (cls : Class) (track : Bool) :
    ShowsPasses (h.allocateInstance cls track).events := by
  unfold allocateInstance
  split
  · exact .silent rfl
  · next fields _ => exact h.showsPasses_allocate cls fields _ track

end Heap

theorem HeapOp.showsPasses_perform (op : HeapOp) (h : Heap) :
    ShowsPasses (op.perform h).events := by
  cases op with
  | allocate cls slots size track => exact h.showsPasses_allocate cls slots size track
  | allocateArray cls length track => exact h.showsPasses_allocateArray cls length track
  | allocateInstance cls track => exact h.showsPasses_allocateInstance cls track
  | free r =>
      unfold perform Heap.freeObject
      dsimp only
      split <;> exact .silent rfl
  | release r | releaseTracked r => exact .silent rfl
  | collect => exact h.showsPasses_collect
  | put r index w =>
      unfold perform
      dsimp only
      split <;> exact .silent rfl
  | externalAlloc bytes =>
      unfold perform Heap.externalAlloc
      dsimp only
      split <;> exact .silent rfl
  | externalFree bytes => exact .silent rfl

/-! ### Classes -/

namespace ClassTable

theorem showsPasses_prepare (t : ClassTable) (descriptor : String) (kind : ClassKind) :
    ShowsPasses (t.prepare descriptor kind).events := by
  have hsilent : tracedCalls [.notice (.preparing descriptor)] = [] := rfl
  unfold prepare
  split
  · exact ShowsPasses.pass .classPreparation (show tracedCalls [] = [] from rfl)
  · exact ShowsPasses.pass .classPreparation hsilent

theorem showsPasses_define (t : ClassTable) (descriptor : String) (fields : Nat) :
    ShowsPasses (t.define descriptor fields).events := by
  unfold define
  split
  · exact .silent rfl
  · exact t.showsPasses_prepare descriptor _

/-- The classes of the elements are prepared one after the other, not inside each other. -/
theorem showsPasses_findChars (t : ClassTable) (chars : List Char) :
    ShowsPasses (t.findChars chars).events := by
  fun_induction ClassTable.findChars t chars
  with
  | case1 | case2 | case6 => exact .silent rfl
  | case3 rest element _ hprimitive descriptor => exact t.showsPasses_prepare descriptor _
  | case4 rest element _ hprimitive found e _ descriptor _ ih => exact ih
  | case5 rest element _ hprimitive found c _ descriptor _ made ih =>
      exact ih.append (found.state.showsPasses_prepare descriptor _)

end ClassTable

namespace Store

theorem showsPasses_resolveClass (s : Store) (m : Module) (index : Nat) :
    ShowsPasses (s.resolveClass m index).events := by
  unfold resolveClass
  split
  · exact .silent rfl
  · split
    · exact .silent rfl
    · next descriptor _ =>
      dsimp only
      split <;> exact s.classes.showsPasses_findChars descriptor.toList

theorem showsPasses_newArray (s : Store) (f : Frame) (dst : UInt8) (length : Int32)
    (classIndex : UInt16) : ShowsPasses (s.newArray f dst length classIndex).events := by
  have hresolved := s.showsPasses_resolveClass f.home classIndex.toNat
  unfold newArray
  split
  · exact .silent rfl
  · dsimp only
    split
    · exact hresolved
    · next c _ =>
      have hmade := Heap.showsPasses_allocateArray
        (s.resolveClass f.home classIndex.toNat).state.heap c length.toInt.toNat false
      exact hresolved.append hmade

end Store

/-! ### Instructions -/

namespace Machine

theorem showsPasses_execute (m : Machine) (f : Frame) (i : Instruction) :
    ShowsPasses (m.execute f i).events := by
  unfold execute
  split
  · next dst length classIndex =>
    split
    · exact .silent rfl
    · next n _ =>
      rw [newArray_eq]
      exact .skip rfl (m.store.showsPasses_newArray f dst n classIndex)
  · split <;> exact .silent rfl

/-- A trace shows passes of an instruction, and nothing else. -/
theorem showsPasses_step (m : Machine) : ShowsPasses m.step.events := by
  cases hf : m.stack.frames with
  | nil =>
      simp only [step, hf]
      exact .silent rfl
  | cons f rest =>
      rw [step_eq hf]
      cases decodeAt f.method.code f.pc with
      | error e => exact .silent rfl
      | ok i => exact .skip rfl (.skip rfl (m.showsPasses_execute f i))

end Machine

end TracedMachine
