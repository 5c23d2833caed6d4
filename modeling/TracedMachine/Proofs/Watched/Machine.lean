import TracedMachine.Proofs.Watched.Store

/-!
# Proofs — Watched — Machine

Running methods, watched.  An instruction is counted and then handled: its handler reads registers,
writes them and takes what is pending in the order in which they come (`Work.execute`), and one that
throws half-way leaves what it has written.  The loop tells the profiler when methods are entered
and left, and when they are left for want of a handler (`Work.advance`).

The handlers come to what `Machine.execute` plans and then does (`Work.run_execute`), so a turn, a
run and a call come to the same as those that list their events.
-/

namespace TracedMachine

namespace Work

/-! ### Frames and registers -/

/-- Works on the store. -/
def onStore {α : Type} (x : Work Store α) : Work Machine α :=
  x.onPart Machine.store fun m store => { m with store }

/-- Works on the heap. -/
def onHeap {α : Type} (x : Work Heap α) : Work Machine α :=
  x.onPart (fun m => m.store.heap) fun m heap => { m with store := { m.store with heap } }

/-- Changes the stack. -/
def changeStack (f : Stack → Stack) : Work Machine Unit :=
  change fun m => { m with stack := f m.stack }

/-- The innermost frame. -/
def frame : Work Machine Frame := do
  match (← state).stack.frames with
  | [] => throw (.verify .noFrame)
  | f :: _ => return f

/-- The word in a register. -/
def getRegister (i : UInt8) : Work Machine Word := do
  ofExcept ((← frame).registers.get i.toNat)

/-- A register as a signed number. -/
def getInt (i : UInt8) : Work Machine Int32 := do
  ofExcept ((← frame).registers.getInt i.toNat)

/-- A register as a reference to an object. -/
def getObject (i : UInt8) : Work Machine ObjectRef := do
  ofExcept ((← frame).registers.getObject i.toNat)

/-- Stores a word in a register. -/
def setRegister (i : UInt8) (w : Word) : Work Machine Unit := do
  let registers ← ofExcept ((← frame).registers.set i.toNat w)
  changeStack fun s => s.modifyTop fun f => { f with registers }

/-- A branch by `offset`. -/
def branch (offset : Int) : Work Machine Control := do
  ofExcept ((← frame).branch offset)

/-- Adds a frame, if there is room for it. -/
def push (f : Frame) : Work Machine Unit := do
  ofExcept (← state).stack.room
  changeStack fun s => s.push f

/-! ### Instructions -/

/-- The class that a number of the innermost frame's module stands for. -/
def classAt (index : Nat) : Work Machine Class := do
  let home := (← frame).home
  match (← state).store.cached? home index with
  | some c => return c
  | none => onStore (resolveClass home index)

/-- Makes an array of as many elements as a register says. -/
def newArray (dst length : UInt8) (classIndex : UInt16) : Work Machine Unit := do
  let n ← getInt length
  tellLog (.newArray dst n classIndex)
  if n.toInt < 0 then throw (.negativeArraySize n.toInt)
  else
    let c ← classAt classIndex.toNat
    let object ← onHeap (allocateArray c n.toInt.toNat false)
    setRegister dst object.toWord

/-- Runs an instruction in the innermost frame. -/
def execute (i : Instruction) : Work Machine Control := do
  let next := Control.next i.width
  match i with
  | .nop => return next
  | .move dst src =>
    let w ← getRegister src
    setRegister dst w
    return next
  | .moveResult dst =>
    setRegister dst (← state).stack.result
    return next
  | .moveException dst =>
    match (← state).stack.pending with
    | none => throw (.verify .noPendingException)
    | some t =>
      setRegister dst t.kind.code.toUInt64
      changeStack fun s => { s with pending := none }
      return next
  | .returnVoid => return .leave 0
  | .returnValue src => return .leave (← getRegister src)
  | .const dst value =>
    setRegister dst (Word.ofInt32 value)
    return next
  | .arrayLength dst array =>
    let object ← getObject array
    let length ← ofExcept ((← state).store.heap.arrayLength object)
    setRegister dst (Word.ofInt32 (Int32.ofNat length))
    return next
  | .newArray dst length classIndex =>
    newArray dst length classIndex
    return next
  | .throwNew code =>
    match ThrowableKind.ofCode? code.toNat with
    | some kind => throw (.raised kind none)
    | none => throw (.verify (.unknownThrowable code.toNat))
  | .goto offset => branch offset.toInt
  | .ifZero src offset => if (← getInt src) = 0 then branch offset.toInt else return next
  | .arrayGet dst array index =>
    let object ← getObject array
    let k ← getInt index
    let w ← ofExcept ((← state).store.heap.arrayGet object k)
    setRegister dst w
    return next
  | .arrayPut src array index =>
    let w ← getRegister src
    let object ← getObject array
    let k ← getInt index
    onHeap (arrayPut object k w)
    return next
  | .addInt dst lhs rhs =>
    let a ← getInt lhs
    let b ← getInt rhs
    setRegister dst (Word.ofInt32 (a + b))
    return next
  | .invoke count index first => return .call (← ofExcept ((← frame).callee count index first))

/-- Runs the next instruction, and says where control goes. -/
def step : Work Machine Control := do
  let f ← frame
  match decodeAt f.method.code f.pc with
  | .error e => throw (.verify (.undecodable e))
  | .ok i =>
    tellProfiler (.instruction i.opcode)
    tellLog (.executing f.method.name f.pc i)
    execute i

/-! ### The loop -/

/-- Leaves up to `count` frames until one has a handler for the throwable, and throws it if none
has. -/
def unwindTop (t : Throwable) : (count : Nat) → Work Machine Unit
  | 0 => throw t
  | count + 1 => do
    match (← state).stack.frames with
    | [] => throw t
    | f :: _ =>
      match f.method.handler? f.pc t.kind with
      | some handler =>
        tellLog (.caught t f.method.name f.pc)
        changeStack fun s => s.modifyTop fun f => { f with pc := handler }
        changeStack fun s => { s with pending := some t }
      | none =>
        changeStack Stack.pop
        tellProfiler (.method f.method.id .unwind)
        unwindTop t count

/-- Looks for a handler in the frames above `base`. -/
def unwind (t : Throwable) (base : Nat) : Work Machine Unit := do
  unwindTop t ((← state).stack.depth - base)

/-- Leaves the innermost frame. -/
def leave : Work Machine Unit := do
  let left := (← state).stack.frames.head?
  changeStack Stack.pop
  match left with
  | some f => tellProfiler (.method f.method.id .exit)
  | none => return ()

/-- Goes where control goes.  There is a value if the call has ended. -/
def follow (base : Nat) : Control → Work Machine (Option Word)
  | .next width => do
    changeStack fun s => s.modifyTop fun f => { f with pc := f.pc + width }
    return none
  | .jump target => do
    changeStack fun s => s.modifyTop fun f => { f with pc := target }
    return none
  | .call callee => do
    match ← (push callee).attempt with
    | .ok _ =>
      tellProfiler (.method callee.method.id .enter)
      return none
    | .error t =>
      unwind t base
      return none
  | .leave value => do
    leave
    if (← state).stack.depth ≤ base then return some value
    else
      changeStack fun s => { s with result := value }
      changeStack fun s => s.modifyTop fun f => { f with pc := f.pc + Opcode.invoke.width }
      return none

/-- One turn of the loop. -/
def advance (base : Nat) : Work Machine (Option Word) := do
  match ← step.attempt with
  | .ok control => follow base control
  | .error t =>
    unwind t base
    return none

/-- Takes up to `turns` turns of the loop.  There is no value if the call has not ended by then. -/
def runFor (base : Nat) : (turns : Nat) → Work Machine (Option Word)
  | 0 => return none
  | turns + 1 => do
    match ← advance base with
    | some value => return some value
    | none => runFor base turns

/-- Calls a method of a module, for up to `turns` turns of the loop. -/
def invoke (turns : Nat) (home : Module) (index : Nat) (args : List Word) :
    Work Machine (Option Word) := do
  let f ← ofExcept (Machine.firstFrame home index args)
  let base := (← state).stack.depth
  push f
  tellProfiler (.method f.method.id .enter)
  runFor base turns

/-! ### Two runs -/

namespace Transparent

theorem changeStack (f : Stack → Stack) : (Work.changeStack f).Transparent := .change _

theorem frame : Work.frame.Transparent := by
  refine .bind .state fun m => ?_
  split
  · exact .throw _
  · exact .pure _

theorem getRegister (i : UInt8) : (Work.getRegister i).Transparent :=
  .bind .frame fun _ => .ofExcept _

theorem getInt (i : UInt8) : (Work.getInt i).Transparent := .bind .frame fun _ => .ofExcept _

theorem getObject (i : UInt8) : (Work.getObject i).Transparent := .bind .frame fun _ => .ofExcept _

theorem setRegister (i : UInt8) (w : Word) : (Work.setRegister i w).Transparent :=
  .bind .frame fun _ => .bind (.ofExcept _) fun _ => .changeStack _

theorem branch (offset : Int) : (Work.branch offset).Transparent :=
  .bind .frame fun _ => .ofExcept _

theorem push (f : Frame) : (Work.push f).Transparent :=
  .bind .state fun _ => .bind (.ofExcept _) fun _ => .changeStack _

theorem classAt (index : Nat) : (Work.classAt index).Transparent := by
  refine .bind .frame fun f => .bind .state fun m => ?_
  split
  · exact .pure _
  · exact .onPart (.resolveClass f.home index) _ _

theorem newArray (dst length : UInt8) (classIndex : UInt16) :
    (Work.newArray dst length classIndex).Transparent := by
  refine .bind (.getInt length) fun n => .bind (.tellLog _) fun _ => ?_
  split
  · exact .throw _
  · refine .bind (.classAt _) fun c => ?_
    exact .bind (.onPart (.allocateArray c _ false) _ _) fun _ => .setRegister dst _

/-- **Every instruction is transparent.** -/
theorem execute (i : Instruction) : (Work.execute i).Transparent := by
  cases i with
  | nop => exact .pure _
  | move dst src =>
      exact .bind (.getRegister src) fun w => .bind (.setRegister dst w) fun _ => .pure _
  | moveResult dst => exact .bind .state fun _ => .bind (.setRegister dst _) fun _ => .pure _
  | moveException dst =>
      unfold Work.execute
      refine .bind .state fun m => ?_
      split
      · exact .throw _
      · exact .bind (.setRegister dst _) fun _ => .bind (.changeStack _) fun _ => .pure _
  | returnVoid => exact .pure _
  | returnValue src => exact .bind (.getRegister src) fun _ => .pure _
  | const dst value => exact .bind (.setRegister dst _) fun _ => .pure _
  | arrayLength dst array =>
      refine .bind (.getObject array) fun object => .bind .state fun m => ?_
      exact .bind (.ofExcept _) fun _ => .bind (.setRegister dst _) fun _ => .pure _
  | newArray dst length classIndex =>
      exact .bind (.newArray dst length classIndex) fun _ => .pure _
  | throwNew code =>
      unfold Work.execute
      dsimp only
      split
      · exact .throw _
      · exact .throw _
  | goto offset => exact .branch offset.toInt
  | ifZero src offset =>
      unfold Work.execute
      refine .bind (.getInt src) fun n => ?_
      split
      · exact .branch offset.toInt
      · exact .pure _
  | arrayGet dst array index =>
      refine .bind (.getObject array) fun object => .bind (.getInt index) fun k => ?_
      refine .bind .state fun m => .bind (.ofExcept _) fun w => ?_
      exact .bind (.setRegister dst w) fun _ => .pure _
  | arrayPut src array index =>
      refine .bind (.getRegister src) fun w => .bind (.getObject array) fun object => ?_
      refine .bind (.getInt index) fun k => ?_
      exact .bind (.onPart (.arrayPut object k w) _ _) fun _ => .pure _
  | addInt dst lhs rhs =>
      refine .bind (.getInt lhs) fun a => .bind (.getInt rhs) fun b => ?_
      exact .bind (.setRegister dst _) fun _ => .pure _
  | invoke count index first => exact .bind .frame fun _ => .bind (.ofExcept _) fun _ => .pure _

theorem step : Work.step.Transparent := by
  refine .bind .frame fun f => ?_
  split
  · exact .throw _
  · next i _ => exact .bind (.tellProfiler _) fun _ => .bind (.tellLog _) fun _ => .execute i

theorem unwindTop (t : Throwable) (count : Nat) : (Work.unwindTop t count).Transparent := by
  induction count with
  | zero => exact .throw t
  | succ count ih =>
      unfold Work.unwindTop
      refine .bind .state fun m => ?_
      split
      · exact .throw t
      · split
        · refine .bind (.tellLog _) fun _ => ?_
          exact .bind (.changeStack _) fun _ => .changeStack _
        · exact .bind (.changeStack _) fun _ => .bind (.tellProfiler _) fun _ => ih

theorem unwind (t : Throwable) (base : Nat) : (Work.unwind t base).Transparent :=
  .bind .state fun _ => .unwindTop t _

theorem leave : Work.leave.Transparent := by
  refine .bind .state fun m => .bind (.changeStack _) fun _ => ?_
  split
  · exact .tellProfiler _
  · exact .pure _

theorem follow (base : Nat) (control : Control) : (Work.follow base control).Transparent := by
  cases control with
  | next width => exact .bind (.changeStack _) fun _ => .pure none
  | jump target => exact .bind (.changeStack _) fun _ => .pure none
  | call callee =>
      refine .bind (.attempt (.push callee)) fun pushed => ?_
      cases pushed with
      | ok _ => exact .bind (.tellProfiler _) fun _ => .pure none
      | error t => exact .bind (.unwind t base) fun _ => .pure none
  | leave value =>
      refine .bind .leave fun _ => .bind .state fun m => ?_
      split
      · exact .pure _
      · exact .bind (.changeStack _) fun _ => .bind (.changeStack _) fun _ => .pure none

/-- **A turn is transparent.** -/
theorem advance (base : Nat) : (Work.advance base).Transparent := by
  refine .bind (.attempt .step) fun done => ?_
  cases done with
  | ok control => exact .follow base control
  | error t => exact .bind (.unwind t base) fun _ => .pure none

/-- **A run is transparent**, of whatever length. -/
theorem runFor (base turns : Nat) : (Work.runFor base turns).Transparent := by
  induction turns with
  | zero => exact .pure none
  | succ turns ih =>
      unfold Work.runFor
      refine .bind (.advance base) fun ended => ?_
      cases ended with
      | some value => exact .pure _
      | none => exact ih

/-- **A call is transparent.** -/
theorem invoke (turns : Nat) (home : Module) (index : Nat) (args : List Word) :
    (Work.invoke turns home index args).Transparent := by
  refine .bind (.ofExcept _) fun f => .bind .state fun m => .bind (.push f) fun _ => ?_
  exact .bind (.tellProfiler _) fun _ => .runFor _ turns

end Transparent

/-! ### The same as listing events -/

section

variable {m : Machine} {f : Frame} {rest : List Frame} (o : Observers)

theorem run_changeStack (change : Stack → Stack) (w : Watched Machine) :
    (changeStack change).run w =
      .ok () { w with state := { w.state with stack := change w.state.stack } } := rfl

theorem run_frame (hf : m.stack.frames = f :: rest) : frame.run ⟨m, o⟩ = .ok f ⟨m, o⟩ := by
  unfold frame
  simp only [EStateM.run_bind, run_state, hf]
  rfl

theorem run_getRegister (hf : m.stack.frames = f :: rest) (i : UInt8) :
    (getRegister i).run ⟨m, o⟩ = (ofExcept (f.registers.get i.toNat)).run ⟨m, o⟩ := by
  simp only [getRegister, EStateM.run_bind, run_frame o hf]

theorem run_getInt (hf : m.stack.frames = f :: rest) (i : UInt8) :
    (getInt i).run ⟨m, o⟩ = (ofExcept (f.registers.getInt i.toNat)).run ⟨m, o⟩ := by
  simp only [getInt, EStateM.run_bind, run_frame o hf]

theorem run_getObject (hf : m.stack.frames = f :: rest) (i : UInt8) :
    (getObject i).run ⟨m, o⟩ = (ofExcept (f.registers.getObject i.toNat)).run ⟨m, o⟩ := by
  simp only [getObject, EStateM.run_bind, run_frame o hf]

theorem run_branch (hf : m.stack.frames = f :: rest) (offset : Int) :
    (branch offset).run ⟨m, o⟩ = (ofExcept (f.branch offset)).run ⟨m, o⟩ := by
  simp only [branch, EStateM.run_bind, run_frame o hf]

/-- Storing a word in a register is the change that is planned for it. -/
theorem run_setRegister (hf : m.stack.frames = f :: rest) (i : UInt8) (w : Word) :
    (setRegister i w).run ⟨m, o⟩ =
      match f.write i w with
      | .ok change => .ok () ⟨m.apply change, o⟩
      | .error t => .error t ⟨m, o⟩ := by
  simp only [setRegister, EStateM.run_bind, run_frame o hf, Registers.set, Frame.write]
  cases f.registers.check i.toNat with
  | error t => rfl
  | ok _ =>
      obtain ⟨⟨frames, depth, result, pending, limit, hdepth⟩, store⟩ := m
      cases hf
      rfl

theorem run_classAt (hf : m.stack.frames = f :: rest) (index : Nat) :
    (classAt index).run ⟨m, o⟩ = (onStore (resolveClass f.home index)).run ⟨m, o⟩ := by
  simp only [classAt, onStore, EStateM.run_bind, run_frame o hf, run_state, run_onPart,
    run_resolveClass]
  -- a class that is cached is what it is resolved to
  cases hcached : m.store.cached? f.home index with
  | none => simp only [run_onPart, run_resolveClass]
  | some c =>
      simp only [Store.resolveClass, hcached]
      rfl

theorem run_newArray (hf : m.stack.frames = f :: rest) (dst length : UInt8)
    (classIndex : UInt16) :
    (newArray dst length classIndex).run ⟨m, o⟩ =
      match f.registers.getInt length.toNat with
      | .error t => .error t ⟨m, o⟩
      | .ok n =>
        (m.newArray f dst n classIndex).result
          (o.observe (.notice (.newArray dst n classIndex))) := by
  simp only [newArray, EStateM.run_bind, run_getInt o hf]
  cases f.registers.getInt length.toNat with
  | error t => rfl
  | ok n =>
      simp only [run_ofExcept_ok, run_tellLog, Machine.newArray]
      split
      · rfl
      · simp only [EStateM.run_bind, run_classAt _ hf, onStore, run_onPart, run_resolveClass]
        generalize m.store.resolveClass f.home classIndex.toNat = found
        obtain ⟨value, ⟨heap, classes, caches⟩, es⟩ := found
        cases value with
        | error t => rfl
        | ok c =>
            simp only [Outcome.result, Outcome.shown, onHeap, run_onPart, run_allocateArray]
            generalize heap.allocateArray c n.toInt.toNat false = made
            obtain ⟨value, heap', more⟩ := made
            cases value with
            | error t =>
                simp only [List.foldl_append]
                rfl
            | ok object =>
                have hf' : (Machine.mk m.stack ⟨heap', classes, caches⟩).stack.frames = f :: rest :=
                  hf
                simp only [run_setRegister _ hf', Frame.write]
                cases f.registers.check dst.toNat with
                | error t =>
                    simp only [List.foldl_append]
                    rfl
                | ok _ =>
                    simp only [List.foldl_append]
                    rfl

/-- **Every instruction** answers, leaves and tells what the one that lists its events answers,
leaves and lists. -/
theorem run_execute (hf : m.stack.frames = f :: rest) (i : Instruction) :
    (execute i).run ⟨m, o⟩ = (m.execute f i).result o := by
  cases i with
  | nop => rfl
  | move dst src =>
      simp only [execute, EStateM.run_bind, run_getRegister o hf, Machine.execute, Frame.plan]
      cases f.registers.get src.toNat with
      | error t => rfl
      | ok w =>
          simp only [run_ofExcept_ok, run_setRegister o hf, bind, Except.bind]
          cases f.write dst w <;> rfl
  | moveResult dst =>
      simp only [execute, EStateM.run_bind, run_state, run_setRegister o hf, Machine.execute,
        Frame.plan]
      cases f.write dst m.stack.result <;> rfl
  | moveException dst =>
      simp only [execute, EStateM.run_bind, run_state, Machine.execute, Frame.plan]
      cases m.stack.pending with
      | none => rfl
      | some t =>
          simp only [EStateM.run_bind, run_setRegister o hf, Frame.write]
          cases f.registers.check dst.toNat <;> rfl
  | returnVoid => rfl
  | returnValue src =>
      simp only [execute, EStateM.run_bind, run_getRegister o hf, Machine.execute, Frame.plan]
      cases f.registers.get src.toNat <;> rfl
  | const dst value =>
      simp only [execute, EStateM.run_bind, run_setRegister o hf, Machine.execute, Frame.plan]
      cases f.write dst (Word.ofInt32 value) <;> rfl
  | arrayLength dst array =>
      simp only [execute, EStateM.run_bind, run_getObject o hf, Machine.execute, Frame.plan]
      cases f.registers.getObject array.toNat with
      | error t => rfl
      | ok object =>
          simp only [run_ofExcept_ok, run_state, bind, Except.bind]
          cases m.store.heap.arrayLength object with
          | error t => rfl
          | ok length =>
              simp only [run_ofExcept_ok, run_setRegister o hf]
              cases f.write dst (Word.ofInt32 (Int32.ofNat length)) <;> rfl
  | newArray dst length classIndex =>
      simp only [execute, EStateM.run_bind, run_newArray o hf, Machine.execute]
      cases f.registers.getInt length.toNat with
      | error t => rfl
      | ok n =>
          simp only [Outcome.result]
          cases (m.newArray f dst n classIndex).value <;> rfl
  | throwNew code =>
      simp only [execute, Machine.execute, Frame.plan]
      cases ThrowableKind.ofCode? code.toNat <;> rfl
  | goto offset =>
      simp only [execute, run_branch o hf, Machine.execute, Frame.plan]
      cases f.branch offset.toInt <;> rfl
  | ifZero src offset =>
      simp only [execute, EStateM.run_bind, run_getInt o hf, Machine.execute, Frame.plan]
      cases f.registers.getInt src.toNat with
      | error t => rfl
      | ok n =>
          simp only [run_ofExcept_ok, bind, Except.bind]
          split
          · rw [run_branch o hf]
            cases f.branch offset.toInt <;> rfl
          · rfl
  | arrayGet dst array index =>
      simp only [execute, EStateM.run_bind, run_getObject o hf, Machine.execute, Frame.plan]
      cases f.registers.getObject array.toNat with
      | error t => rfl
      | ok object =>
          simp only [run_ofExcept_ok, run_getInt o hf, bind, Except.bind]
          cases f.registers.getInt index.toNat with
          | error t => rfl
          | ok k =>
              simp only [run_ofExcept_ok, run_state]
              cases m.store.heap.arrayGet object k with
              | error t => rfl
              | ok w =>
                  simp only [run_ofExcept_ok, run_setRegister o hf]
                  cases f.write dst w <;> rfl
  | arrayPut src array index =>
      simp only [execute, EStateM.run_bind, run_getRegister o hf, Machine.execute, Frame.plan]
      cases f.registers.get src.toNat with
      | error t => rfl
      | ok w =>
          simp only [run_ofExcept_ok, run_getObject o hf, bind, Except.bind]
          cases f.registers.getObject array.toNat with
          | error t => rfl
          | ok object =>
              simp only [run_ofExcept_ok, run_getInt o hf]
              cases f.registers.getInt index.toNat with
              | error t => rfl
              | ok k =>
                  simp only [run_ofExcept_ok, onHeap, run_onPart, run_arrayPut, Heap.arrayPut]
                  cases m.store.heap.elementIndex object k <;> rfl
  | addInt dst lhs rhs =>
      simp only [execute, EStateM.run_bind, run_getInt o hf, Machine.execute, Frame.plan]
      cases f.registers.getInt lhs.toNat with
      | error t => rfl
      | ok a =>
          simp only [run_ofExcept_ok, run_getInt o hf, bind, Except.bind]
          cases f.registers.getInt rhs.toNat with
          | error t => rfl
          | ok b =>
              simp only [run_ofExcept_ok, run_setRegister o hf]
              cases f.write dst (Word.ofInt32 (a + b)) <;> rfl
  | invoke count index first =>
      simp only [execute, EStateM.run_bind, run_frame o hf, Machine.execute, Frame.plan]
      cases f.callee count index first <;> rfl

theorem run_step (m : Machine) : step.run ⟨m, o⟩ = m.step.result o := by
  unfold Machine.step
  cases hf : m.stack.frames with
  | nil =>
      simp only [step, frame, EStateM.run_bind, run_state, hf]
      rfl
  | cons f rest =>
      simp only [step, EStateM.run_bind, run_frame o hf]
      cases decodeAt f.method.code f.pc with
      | error e => rfl
      | ok i =>
          simp only [EStateM.run_bind, run_tellProfiler, run_tellLog, run_execute _ hf]
          cases hvalue : (m.execute f i).value <;> simp only [Outcome.result, hvalue] <;> rfl

end

end Work

/-- The result of the last call and the innermost frame can be changed in any order. -/
theorem Stack.modifyTop_result (s : Stack) (value : Word) (change : Frame → Frame) :
    { s with result := value }.modifyTop change =
      { s.modifyTop change with result := value } := by
  obtain ⟨frames, depth, result, pending, limit, hdepth⟩ := s
  cases frames <;> rfl

/-- What looking for a handler comes to when the events have been shown. -/
def Stack.Unwound.result (store : Store) (t : Throwable) (o : Observers) (u : Unwound) :
    WorkResult Machine Unit :=
  let o := u.events.foldl Observers.observe o
  if u.caught then .ok () ⟨⟨{ u.stack with pending := some t }, store⟩, o⟩
  else .error t ⟨⟨u.stack, store⟩, o⟩

/-- What a turn comes to when its events have been shown. -/
def Machine.Turn.result (o : Observers) : Turn → WorkResult Machine (Option Word)
  | .goesOn m es => .ok none ⟨m, es.foldl Observers.observe o⟩
  | .ended (.ok value) m es => .ok (some value) ⟨m, es.foldl Observers.observe o⟩
  | .ended (.error t) m es => .error t ⟨m, es.foldl Observers.observe o⟩

/-- What a run that has been shown comes to. -/
def Machine.Run.result : Run Observers → WorkResult Machine (Option Word)
  | .running m o => .ok none ⟨m, o⟩
  | .ended (.ok value) m o => .ok (some value) ⟨m, o⟩
  | .ended (.error t) m o => .error t ⟨m, o⟩

namespace Work

variable (m : Machine) (o : Observers)

theorem run_unwindTop (t : Throwable) (count : Nat) :
    (unwindTop t count).run ⟨m, o⟩ = (m.stack.unwindTop t count).result m.store t o := by
  induction count generalizing m o with
  | zero => rfl
  | succ count ih =>
      unfold unwindTop Stack.unwindTop
      simp only [EStateM.run_bind, run_state]
      cases m.stack.frames with
      | nil => rfl
      | cons f rest =>
          dsimp only
          cases f.method.handler? f.pc t.kind with
          | some handler => rfl
          | none =>
              simp only [EStateM.run_bind, run_changeStack, run_tellProfiler, ih]
              rfl

theorem run_unwind (t : Throwable) (base : Nat) :
    (unwind t base).run ⟨m, o⟩ = (m.stack.unwind t base).result m.store t o := by
  simp only [unwind, EStateM.run_bind, run_state, run_unwindTop]
  rfl

/-- Looking for a handler after some events have been shown. -/
theorem run_unwind_turn (t : Throwable) (base : Nat) (es : List Event) :
    (unwind t base >>= fun _ => pure none).run ⟨m, es.foldl Observers.observe o⟩ =
      (m.handle base t es).result o := by
  simp only [EStateM.run_bind, run_unwind, Machine.handle]
  generalize m.stack.unwind t base = u
  obtain ⟨stack, caught, more⟩ := u
  cases caught with
  | false => simp [Machine.Turn.result, Stack.Unwound.result]
  | true => simp [Machine.Turn.result, Stack.Unwound.result]

theorem run_leave :
    leave.run ⟨m, o⟩ = .ok () ⟨{ m with stack := m.stack.pop },
      (m.stack.frames.head?.map fun f => Event.method f.method.id .exit).toList.foldl
        Observers.observe o⟩ := by
  simp only [leave, EStateM.run_bind, run_state, run_changeStack]
  cases m.stack.frames.head? <;> rfl

theorem run_follow (base : Nat) (es : List Event) (control : Control) :
    (follow base control).run ⟨m, es.foldl Observers.observe o⟩ =
      (m.follow base es control).result o := by
  cases control with
  | next width => rfl
  | jump target => rfl
  | call callee =>
      simp only [follow, EStateM.run_bind, run_attempt, push, run_state, Machine.follow]
      cases m.stack.room with
      | ok _ =>
          simp only [Machine.Turn.result, List.foldl_append]
          rfl
      | error t => exact run_unwind_turn m o t base es
  | leave value =>
      simp only [follow, EStateM.run_bind, run_leave, run_state, Machine.follow]
      split
      · simp only [Machine.Turn.result, List.foldl_append]
        rfl
      · simp only [Machine.Turn.result, List.foldl_append, EStateM.run_bind, run_changeStack,
          Stack.modifyTop_result]
        rfl

/-- **A turn** comes to the same as one that lists its events. -/
theorem run_advance (base : Nat) : (advance base).run ⟨m, o⟩ = (m.advance base).result o := by
  simp only [advance, EStateM.run_bind, run_attempt, run_step, Machine.advance, Outcome.result]
  cases m.step.value with
  | ok control => exact run_follow m.step.state o base m.step.events control
  | error t => exact run_unwind_turn m.step.state o t base m.step.events

/-- **A run** comes to the same as one that lists its events, whatever its length. -/
theorem run_runFor (base turns : Nat) :
    (runFor base turns).run ⟨m, o⟩ = (Machine.runFor Observers.observe base turns m o).result := by
  induction turns generalizing m o with
  | zero => rfl
  | succ turns ih =>
      unfold runFor Machine.runFor
      simp only [EStateM.run_bind, run_advance]
      cases m.advance base with
      | goesOn m' es => exact ih m' _
      | ended value m' es => cases value <;> rfl

/-- **A call** comes to the same as one that lists its events. -/
theorem run_invoke (turns : Nat) (home : Module) (index : Nat) (args : List Word) :
    (invoke turns home index args).run ⟨m, o⟩ =
      (m.invokeFor Observers.observe turns home index args o).result := by
  unfold Machine.invokeFor
  simp only [invoke, EStateM.run_bind, push, run_state]
  cases Machine.firstFrame home index args with
  | error t => rfl
  | ok f =>
      simp only [run_ofExcept_ok, bind, Except.bind]
      cases m.stack.room with
      | error t => rfl
      | ok _ => exact run_runFor { m with stack := m.stack.push f } _ m.stack.depth turns

end Work

end TracedMachine
