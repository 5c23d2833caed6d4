import TracedMachine.Proofs.ClassTable.Linking
import TracedMachine.Proofs.Heap.Balance
import TracedMachine.Proofs.Machine.Call

/-!
# Proofs — Machine — Memory

What running code does to memory.  Two instructions reach the heap, one that makes an array and one
that stores an element, and each asks one thing of it (`Machine.heapOp?`).  Finding a class,
entering and leaving methods and looking for handlers leave it alone.

So a run is a history of the heap (`Machine.heapOps`): the heap after the run is the heap after
these operations, and the run tells of memory what they do (`Machine.does_runFor`,
`Machine.does_invokeFor`).
-/

namespace TracedMachine

/-! ### Classes -/

namespace ClassTable

theorem allocEvents_prepare (t : ClassTable) (descriptor : String) (kind : ClassKind) :
    allocEvents (t.prepare descriptor kind).events = [] := by
  unfold prepare
  split <;> rfl

theorem allocEvents_define (t : ClassTable) (descriptor : String) (fields : Nat) :
    allocEvents (t.define descriptor fields).events = [] := by
  unfold define
  split
  · rfl
  · exact t.allocEvents_prepare descriptor _

theorem allocEvents_findChars (t : ClassTable) (chars : List Char) :
    allocEvents (t.findChars chars).events = [] := by
  fun_induction ClassTable.findChars t chars with
  | case1 | case2 | case6 => rfl
  | case3 rest element _ hprimitive descriptor => exact t.allocEvents_prepare descriptor _
  | case4 rest element _ hprimitive found e _ descriptor _ ih => exact ih
  | case5 rest element _ hprimitive found c _ descriptor _ made ih =>
      rw [allocEvents_append, ih]
      exact found.state.allocEvents_prepare descriptor _

end ClassTable

namespace Store

variable (s : Store)

theorem allocEvents_resolveClass (m : Module) (index : Nat) :
    allocEvents (s.resolveClass m index).events = [] := by
  unfold resolveClass
  split
  · rfl
  · split
    · rfl
    · next descriptor _ =>
      dsimp only
      split <;> exact s.classes.allocEvents_findChars descriptor.toList

/-- What making an array asks of the heap: nothing if the length is negative or there is no such
class. -/
def newArrayOp? (f : Frame) (length : Int32) (classIndex : UInt16) : Option HeapOp :=
  if length.toInt < 0 then none
  else
    match (s.resolveClass f.home classIndex.toNat).value with
    | .error _ => none
    | .ok c => some (.allocateArray c length.toInt.toNat false)

theorem does_newArray (f : Frame) (dst : UInt8) (length : Int32) (classIndex : UInt16) :
    s.heap.Does (s.newArrayOp? f length classIndex).toList
      (s.newArray f dst length classIndex).state.heap
      (s.newArray f dst length classIndex).events := by
  have hfound : s.heap.Does [] (s.resolveClass f.home classIndex.toNat).state.heap
      (s.resolveClass f.home classIndex.toNat).events := by
    rw [heap_resolveClass]
    exact .silent (s.allocEvents_resolveClass f.home classIndex.toNat)
  unfold newArray newArrayOp?
  by_cases hneg : length.toInt < 0
  · rw [if_pos hneg, if_pos hneg]
    exact .silent rfl
  · rw [if_neg hneg, if_neg hneg]
    dsimp only
    cases (s.resolveClass f.home classIndex.toNat).value with
    | error e => exact hfound
    | ok c =>
        have hmade := Heap.Does.one (s.resolveClass f.home classIndex.toNat).state.heap
          (.allocateArray c length.toInt.toNat false)
        exact hfound.trans hmade

end Store

/-! ### Instructions -/

/-- What an instruction asks of the heap in a frame, if it comes to ask anything. -/
def Frame.heapOp? (f : Frame) (s : Store) : Instruction → Option HeapOp
  | .newArray _ length classIndex =>
    match f.registers.getInt length.toNat with
    | .error _ => none
    | .ok n => s.newArrayOp? f n classIndex
  | .arrayPut src array index =>
    match f.registers.get src.toNat, f.registers.getObject array.toNat,
      f.registers.getInt index.toNat with
    | .ok w, .ok object, .ok n => some (.put object n w)
    | _, _, _ => none
  | _ => none

/-- Looking for a handler tells nothing of memory. -/
theorem Stack.allocEvents_unwindTop (t : Throwable) (count : Nat) (s : Stack) :
    allocEvents (unwindTop t count s).events = [] := by
  induction count generalizing s with
  | zero => rfl
  | succ count ih =>
      cases hf : s.frames with
      | nil => simp only [unwindTop, hf, allocEvents_nil]
      | cons f rest =>
          cases hhandler : f.method.handler? f.pc t.kind with
          | some handler =>
              rw [unwindTop_caught hf hhandler]
              rfl
          | none =>
              rw [unwindTop_left hf hhandler]
              exact ih s.pop

namespace Machine

/-- What the next instruction asks of the heap. -/
def heapOp? (m : Machine) : Option HeapOp :=
  match m.stack.frames with
  | [] => none
  | f :: _ =>
    match decodeAt f.method.code f.pc with
    | .error _ => none
    | .ok i => f.heapOp? m.store i

theorem store_receive (m : Machine) (dst : UInt8)
    (made : Outcome Store Event (Except Throwable Word)) :
    (m.receive dst made).store = made.state := by
  unfold receive
  split <;> rfl

/-- Storing an element asks the heap to store it. -/
theorem does_arrayPut (m : Machine) (f : Frame) (src array index : UInt8) :
    m.store.heap.Does (f.heapOp? m.store (.arrayPut src array index)).toList
      (m.execute f (.arrayPut src array index)).state.store.heap
      (m.execute f (.arrayPut src array index)).events := by
  simp only [execute]
  unfold Frame.heapOp?
  dsimp only
  split
  · next w object n hw hobject hn =>
    have hplan : f.plan m.store.heap m.stack.result m.stack.pending (.arrayPut src array index) =
        (m.store.heap.elementIndex object n).map fun k =>
          { change := .element object k w, control := .next 2 } := by
      simp only [Frame.plan, hw, hobject, hn, bind, Except.bind]
      cases m.store.heap.elementIndex object n <;> rfl
    have hput := Heap.Does.one m.store.heap (.put object n w)
    simp only [HeapOp.perform, Heap.arrayPut] at hput
    rw [hplan]
    cases hk : m.store.heap.elementIndex object n with
    | error e =>
        rw [hk] at hput
        exact hput
    | ok k =>
        rw [hk] at hput
        exact hput
  · next hnone =>
    -- a register that is not there, or holds no object or number, is an error of the plan
    have hplan : ∃ e, f.plan m.store.heap m.stack.result m.stack.pending
        (.arrayPut src array index) = .error e := by
      cases hw : f.registers.get src.toNat with
      | error e => exact ⟨e, by simp only [Frame.plan, hw, bind, Except.bind]⟩
      | ok w =>
          cases hobject : f.registers.getObject array.toNat with
          | error e => exact ⟨e, by simp only [Frame.plan, hw, hobject, bind, Except.bind]⟩
          | ok object =>
              cases hn : f.registers.getInt index.toNat with
              | error e => exact ⟨e, by simp only [Frame.plan, hw, hobject, hn, bind, Except.bind]⟩
              | ok n => exact absurd hn (hnone w object n hw hobject)
    obtain ⟨e, hplan⟩ := hplan
    rw [hplan]
    exact .silent rfl

/-- The other instructions leave the heap. -/
theorem does_planned (m : Machine) (f : Frame) {i : Instruction}
    (hnew : ∀ dst length classIndex, i ≠ .newArray dst length classIndex)
    (hput : ∀ src array index, i ≠ .arrayPut src array index) :
    m.store.heap.Does [] (m.execute f i).state.store.heap (m.execute f i).events := by
  unfold execute
  split
  · next dst length classIndex => exact absurd rfl (hnew dst length classIndex)
  · cases hp : f.plan m.store.heap m.stack.result m.stack.pending i with
    | error e => exact .silent rfl
    | ok p =>
        have hapart : p.change.onHeap m.store.heap = m.store.heap := by
          cases Frame.plan_ok hp with
          | moves apart => exact apart _
          | stores => exact absurd rfl (hput _ _ _)
          | jumps | branches | calls | leaves | answers => rfl
        dsimp only
        rw [apply_eq, hapart]
        exact .silent rfl

/-- **An instruction does to the heap what it asks of it.** -/
theorem does_execute (m : Machine) (f : Frame) (i : Instruction) :
    m.store.heap.Does (f.heapOp? m.store i).toList (m.execute f i).state.store.heap
      (m.execute f i).events := by
  cases i with
  | newArray dst length classIndex =>
      unfold execute Frame.heapOp?
      dsimp only
      cases f.registers.getInt length.toNat with
      | error e => exact .silent rfl
      | ok n =>
          dsimp only
          rw [newArray_eq]
          dsimp only
          rw [store_receive]
          exact (m.store.does_newArray f dst n classIndex).skip rfl
  | arrayPut src array index => exact m.does_arrayPut f src array index
  | nop | move | moveResult | moveException | returnVoid | returnValue | const | arrayLength =>
      exact m.does_planned f (fun _ _ _ => Instruction.noConfusion)
        fun _ _ _ => Instruction.noConfusion
  | throwNew | goto | ifZero | arrayGet | addInt | invoke =>
      exact m.does_planned f (fun _ _ _ => Instruction.noConfusion)
        fun _ _ _ => Instruction.noConfusion

theorem does_step (m : Machine) :
    m.store.heap.Does m.heapOp?.toList m.step.state.store.heap m.step.events := by
  unfold heapOp?
  cases hf : m.stack.frames with
  | nil =>
      simp only [step, hf]
      exact .silent rfl
  | cons f rest =>
      rw [step_eq hf]
      dsimp only
      cases decodeAt f.method.code f.pc with
      | error e => exact .silent rfl
      | ok i => exact ((m.does_execute f i).skip rfl).skip rfl

/-! ### Runs -/

/-- What a run asks of the heap, in order. -/
def heapOps (base : Nat) : Nat → Machine → List HeapOp
  | 0, _ => []
  | turns + 1, m =>
    m.heapOp?.toList ++
      match m.advance base with
      | .goesOn m _ => heapOps base turns m
      | .ended .. => []

/-- What a call asks of the heap, in order. -/
def callHeapOps (m : Machine) (turns : Nat) (home : Module) (index : Nat) (args : List Word) :
    List HeapOp :=
  match firstFrame home index args, m.stack.room with
  | .ok frame, .ok _ => heapOps m.stack.depth turns { m with stack := m.stack.push frame }
  | _, _ => []

/-- Operations lead from a heap to that of a turn, and tell of memory what the turn does. -/
def Turn.Does (h : Heap) (ops : List HeapOp) : Turn → Prop
  | .goesOn m es | .ended _ m es => h.Does ops m.store.heap es

/-- Operations lead from a heap to that of a run, and tell of memory what the run does. -/
def Run.Does (h : Heap) (ops : List HeapOp) : Run (List Event) → Prop
  | .ended _ m es | .running m es => h.Does ops m.store.heap es

section

variable {m : Machine} {h : Heap} {ops : List HeapOp} {es : List Event}

theorem does_handle (hdoes : h.Does ops m.store.heap es) (base : Nat) (t : Throwable) :
    (m.handle base t es).Does h ops := by
  have hsilent := m.stack.allocEvents_unwindTop t (m.stack.depth - base)
  unfold handle
  dsimp only
  split
  · exact hdoes.rest hsilent
  · exact hdoes.rest hsilent

theorem does_follow (hdoes : h.Does ops m.store.heap es) (base : Nat) (control : Control) :
    (m.follow base es control).Does h ops := by
  cases control with
  | next width => exact hdoes
  | jump target => exact hdoes
  | call callee =>
      unfold follow
      dsimp only
      split
      · exact hdoes.rest rfl
      · exact does_handle hdoes base _
  | leave value =>
      have hsilent : allocEvents
          (m.stack.frames.head?.map fun f => Event.method f.method.id .exit).toList = [] := by
        cases m.stack.frames.head? <;> rfl
      unfold follow
      dsimp only
      split
      · exact hdoes.rest hsilent
      · exact hdoes.rest hsilent

/-- **A turn does to the heap what its instruction asks of it.** -/
theorem does_advance (m : Machine) (base : Nat) :
    (m.advance base).Does m.store.heap m.heapOp?.toList := by
  have hstep := m.does_step
  unfold advance
  dsimp only
  cases m.step.value with
  | ok control => exact does_follow hstep base control
  | error t => exact does_handle hstep base t

/-- **A run does to the heap what its instructions ask of it.** -/
theorem does_runFor (hdoes : h.Does ops m.store.heap es) (base turns : Nat) :
    (runFor report base turns m es).Does h (ops ++ heapOps base turns m) := by
  -- what has been asked before the run is carried along with what has been reported
  induction turns generalizing m ops es with
  | zero =>
      rw [heapOps, List.append_nil]
      exact hdoes
  | succ turns ih =>
      have hturn := m.does_advance base
      unfold runFor heapOps
      cases hadvance : m.advance base with
      | goesOn next new =>
          rw [hadvance] at hturn
          dsimp only
          rw [foldl_report, ← List.append_assoc]
          exact ih (hdoes.trans hturn)
      | ended value next new =>
          rw [hadvance] at hturn
          dsimp only
          rw [foldl_report, List.append_nil]
          exact hdoes.trans hturn

/-- **A call does to the heap what its instructions ask of it.** -/
theorem does_invokeFor (m : Machine) (turns : Nat) (home : Module) (index : Nat)
    (args : List Word) :
    (m.invokeFor report turns home index args []).Does m.store.heap
      (m.callHeapOps turns home index args) := by
  unfold invokeFor callHeapOps
  cases firstFrame home index args with
  | error t => exact .silent rfl
  | ok frame =>
      cases m.stack.room with
      | error t => exact .silent rfl
      | ok _ =>
          let entered : Machine := { m with stack := m.stack.push frame }
          have hentered : m.store.heap.Does [] entered.store.heap
              [.method frame.method.id .enter] := .silent rfl
          exact does_runFor hentered m.stack.depth turns

end

end Machine

end TracedMachine
