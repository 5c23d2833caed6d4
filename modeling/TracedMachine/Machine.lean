import TracedMachine.Heap
import TracedMachine.Stack

/-!
# Machine

Running methods.  A machine is the stack of one thread and the store that all threads share: the
heap, the classes, and the caches of the loaded modules.

An instruction is first planned (`Frame.plan`): all that it reads is read and checked, and
either it throws or what it will change is known.  Only then is the change made, so an
instruction that throws has changed nothing.  Making an array is the exception, because finding
its class and making room for it happen before it can fail; `Machine.newArray` does it.  The same
instructions as handlers that write one register after another are `Work.execute`.

`Machine.advance` takes one turn of the loop: it runs an instruction and then moves on, enters or
leaves a method, or looks for a handler.  `Machine.runFor` takes a number of turns and shows every
event to an observer.
-/

namespace TracedMachine

/-- What all threads share. -/
structure Store where
  heap : Heap
  classes : ClassTable := {}
  /-- The classes that the loaded modules' numbers were resolved to. -/
  caches : Array ClassCache := #[]
deriving DecidableEq

namespace Store

/-- The class a module's number was resolved to. -/
def cached? (s : Store) (m : Module) (index : Nat) : Option Class :=
  s.caches[m.cache]?.bind fun cache => cache.get? index

/-- Remembers the class of a module's number. -/
def cacheClass (s : Store) (m : Module) (index : Nat) (c : Class) : Store :=
  { s with caches := s.caches.modify m.cache fun cache => cache.set index c }

/-- The class a module refers to by number. -/
def resolveClass (s : Store) (m : Module) (index : Nat) :
    Outcome Store Event (Except Throwable Class) :=
  match s.cached? m index with
  | some c => { value := .ok c, state := s, events := [] }
  | none =>
    match m.classRefs[index]? with
    | none => { value := .error (.verify (.classIndexOutOfRange index)), state := s, events := [] }
    | some descriptor =>
      let found := s.classes.find descriptor
      let s := { s with classes := found.state }
      match found.value with
      | .error e => { value := .error e, state := s, events := found.events }
      | .ok c => { value := .ok c, state := s.cacheClass m index c, events := found.events }

end Store

/-- What an instruction changes. -/
inductive Change where
  | nothing
  /-- A word goes into a register of the innermost frame. -/
  | register (index : Nat) (w : Word)
  /-- The handler takes its throwable: the kind goes into a register, and none is pending. -/
  | takePending (index : Nat) (w : Word)
  /-- A word goes into an element of an object. -/
  | element (object : ObjectRef) (index : Nat) (w : Word)

/-- Where control goes after an instruction. -/
inductive Control where
  /-- To the address so many units on. -/
  | next (width : Nat)
  /-- To an address. -/
  | jump (target : Nat)
  /-- Into a new frame. -/
  | call (callee : Frame)
  /-- Back to the caller, with a result. -/
  | leave (value : Word)

/-- What an instruction changes, and where control goes after it. -/
structure Plan where
  change : Change := .nothing
  control : Control

/-- The stack of one thread and the store that all threads share. -/
structure Machine where
  stack : Stack
  store : Store
deriving DecidableEq

namespace Frame

/-- A word for a register, if the register is there. -/
def write (f : Frame) (index : UInt8) (w : Word) : Except Throwable Change :=
  (f.registers.check index.toNat).map fun _ => .register index.toNat w

/-- A branch by `offset`, if it stays inside the method. -/
def branch (f : Frame) (offset : Int) : Except Throwable Control :=
  let target := (f.pc : Int) + offset
  if 0 ≤ target ∧ target.toNat < f.method.code.size then .ok (.jump target.toNat)
  else .error (.verify (.branchLeaves f.pc offset))

/-- A frame for method `index` of this frame's module, the arguments in its registers. -/
def callee (f : Frame) (count : UInt8) (index first : UInt16) : Except Throwable Frame :=
  match f.home.method? index.toNat with
  | none => .error (.verify (.noMethod index.toNat))
  | some m =>
    if count.toNat ≠ m.ins then .error (.verify (.argumentCount m.name m.ins count.toNat))
    else do
      let args ← f.registers.range first.toNat count.toNat
      let frame := Frame.enter f.home m
      let registers ← frame.registers.loadArgs args
      return { frame with registers }

/-- What an instruction will do in a frame, given the heap, the result of the last call and the
throwable that is pending.  Making an array is not planned. -/
def plan (f : Frame) (heap : Heap) (result : Word) (pending : Option Throwable)
    (i : Instruction) : Except Throwable Plan :=
  let next := Control.next i.width
  let r := f.registers
  match i with
  | .nop | .newArray .. => return { control := next }
  | .move dst src => do
    let w ← r.get src.toNat
    return { change := ← f.write dst w, control := next }
  | .moveResult dst => return { change := ← f.write dst result, control := next }
  | .moveException dst =>
    match pending with
    | none => .error (.verify .noPendingException)
    | some t => do
      r.check dst.toNat
      return { change := .takePending dst.toNat t.kind.code.toUInt64, control := next }
  | .returnVoid => return { control := .leave 0 }
  | .returnValue src => return { control := .leave (← r.get src.toNat) }
  | .const dst value => return { change := ← f.write dst (Word.ofInt32 value), control := next }
  | .arrayLength dst array => do
    let object ← r.getObject array.toNat
    let length ← heap.arrayLength object
    return { change := ← f.write dst (Word.ofInt32 (Int32.ofNat length)), control := next }
  | .throwNew code =>
    match ThrowableKind.ofCode? code.toNat with
    | some kind => .error (.raised kind none)
    | none => .error (.verify (.unknownThrowable code.toNat))
  | .goto offset => return { control := ← f.branch offset.toInt }
  | .ifZero src offset => do
    if (← r.getInt src.toNat) = 0 then return { control := ← f.branch offset.toInt }
    return { control := next }
  | .arrayGet dst array index => do
    let object ← r.getObject array.toNat
    let w ← heap.arrayGet object (← r.getInt index.toNat)
    return { change := ← f.write dst w, control := next }
  | .arrayPut src array index => do
    let w ← r.get src.toNat
    let object ← r.getObject array.toNat
    let k ← heap.elementIndex object (← r.getInt index.toNat)
    return { change := .element object k w, control := next }
  | .addInt dst lhs rhs => do
    let sum := (← r.getInt lhs.toNat) + (← r.getInt rhs.toNat)
    return { change := ← f.write dst (Word.ofInt32 sum), control := next }
  | .invoke count index first => return { control := .call (← f.callee count index first) }

end Frame

namespace Machine

/-- Makes the change of an instruction. -/
def apply (m : Machine) : Change → Machine
  | .nothing => m
  | .register index w =>
    let ⟨stack, store⟩ := m
    ⟨stack.modifyTop fun f => { f with registers := f.registers.store index w }, store⟩
  | .takePending index w =>
    let ⟨stack, store⟩ := m
    let stack := stack.modifyTop fun f => { f with registers := f.registers.store index w }
    ⟨{ stack with pending := none }, store⟩
  | .element object index w =>
    let ⟨stack, ⟨heap, classes, caches⟩⟩ := m
    ⟨stack, ⟨heap.store object index w, classes, caches⟩⟩

/-- Makes an array of `length` elements for the innermost frame `f`. -/
def newArray (m : Machine) (f : Frame) (dst : UInt8) (length : Int32) (classIndex : UInt16) :
    Outcome Machine Event (Except Throwable Unit) :=
  if length.toInt < 0 then
    { value := .error (.negativeArraySize length.toInt), state := m, events := [] }
  else
    let ⟨stack, store⟩ := m
    match store.resolveClass f.home classIndex.toNat with
    | ⟨.error e, store, events⟩ => { value := .error e, state := ⟨stack, store⟩, events }
    | ⟨.ok c, ⟨heap, classes, caches⟩, events⟩ =>
      let ⟨made, heap, more⟩ := heap.allocateArray c length.toInt.toNat false
      let store := ⟨heap, classes, caches⟩
      let events := events ++ more
      match made with
      | .error e => { value := .error e, state := ⟨stack, store⟩, events }
      | .ok object =>
        match f.registers.check dst.toNat with
        | .error e => { value := .error e, state := ⟨stack, store⟩, events }
        | .ok _ =>
          let m := apply ⟨stack, store⟩ (.register dst.toNat object.toWord)
          { value := .ok (), state := m, events }

/-- Runs an instruction in the innermost frame `f`. -/
def execute (m : Machine) (f : Frame) (i : Instruction) :
    Outcome Machine Event (Except Throwable Control) :=
  match i with
  | .newArray dst length classIndex =>
    match f.registers.getInt length.toNat with
    | .error e => { value := .error e, state := m, events := [] }
    | .ok n =>
      let made := m.newArray f dst n classIndex
      { value := made.value.map fun _ => .next i.width
        state := made.state
        events := .notice (.newArray dst n classIndex) :: made.events }
  | i =>
    match f.plan m.store.heap m.stack.result m.stack.pending i with
    | .error e => { value := .error e, state := m, events := [] }
    | .ok p => { value := .ok p.control, state := m.apply p.change, events := [] }

/-- Runs the next instruction, and says where control goes. -/
def step (m : Machine) : Outcome Machine Event (Except Throwable Control) :=
  match m.stack.frames with
  | [] => { value := .error (.verify .noFrame), state := m, events := [] }
  | f :: _ =>
    match decodeAt f.method.code f.pc with
    | .error e => { value := .error (.verify (.undecodable e)), state := m, events := [] }
    | .ok i =>
      let done := m.execute f i
      { done with
        events := .instruction i.opcode :: .notice (.executing f.method.name f.pc i) ::
          done.events }

/-- What a turn of the loop comes to. -/
inductive Turn where
  /-- The loop goes on. -/
  | goesOn (m : Machine) (events : List Event)
  /-- The call has ended. -/
  | ended (value : Except Throwable Word) (m : Machine) (events : List Event)

/-- Looks for a handler in the frames above `base`. -/
def handle (m : Machine) (base : Nat) (t : Throwable) (events : List Event) : Turn :=
  let u := m.stack.unwind t base
  let events := events ++ u.events
  if u.caught then .goesOn { m with stack := { u.stack with pending := some t } } events
  else .ended (.error t) { m with stack := u.stack } events

/-- Goes where control goes. -/
def follow (m : Machine) (base : Nat) (events : List Event) : Control → Turn
  | .next width =>
    .goesOn { m with stack := m.stack.modifyTop fun f => { f with pc := f.pc + width } } events
  | .jump target =>
    .goesOn { m with stack := m.stack.modifyTop fun f => { f with pc := target } } events
  | .call callee =>
    match m.stack.room with
    | .ok _ =>
      .goesOn { m with stack := m.stack.push callee }
        (events ++ [.method callee.method.id .enter])
    | .error t => m.handle base t events
  | .leave value =>
    let left := m.stack.frames.head?.map fun f => Event.method f.method.id .exit
    let events := events ++ left.toList
    let stack := m.stack.pop
    if stack.depth ≤ base then .ended (.ok value) { m with stack } events
    else
      let stack := stack.modifyTop fun f => { f with pc := f.pc + Opcode.invoke.width }
      .goesOn { m with stack := { stack with result := value } } events

/-- One turn of the loop: an instruction, then where control goes.  The call ends when no frame
above `base` is left. -/
def advance (m : Machine) (base : Nat) : Turn :=
  let done := m.step
  match done.value with
  | .ok control => done.state.follow base done.events control
  | .error t => done.state.handle base t done.events

/-- What a number of turns comes to. -/
inductive Run (σ : Type) where
  /-- The call has ended. -/
  | ended (value : Except Throwable Word) (m : Machine) (s : σ)
  /-- The call has not ended yet. -/
  | running (m : Machine) (s : σ)

/-- Takes up to `turns` turns of the loop, and shows every event to an observer. -/
def runFor {σ : Type} (observe : σ → Event → σ) (base : Nat) : Nat → Machine → σ → Run σ
  | 0, m, s => .running m s
  | turns + 1, m, s =>
    match m.advance base with
    | .goesOn m events => runFor observe base turns m (events.foldl observe s)
    | .ended value m events => .ended value m (events.foldl observe s)

/-- The first frame of a call, with its arguments. -/
def firstFrame (home : Module) (index : Nat) (args : List Word) : Except Throwable Frame :=
  match home.method? index with
  | none => .error (.verify (.noMethod index))
  | some method =>
    if args.length ≠ method.ins then
      .error (.verify (.argumentCount method.name method.ins args.length))
    else do
      let frame := Frame.enter home method
      let registers ← frame.registers.loadArgs args
      return { frame with registers }

/-- Calls a method of a module, for up to `turns` turns of the loop. -/
def invokeFor {σ : Type} (observe : σ → Event → σ) (turns : Nat) (m : Machine) (home : Module)
    (index : Nat) (args : List Word) (s : σ) : Run σ :=
  let started := do
    let frame ← firstFrame home index args
    m.stack.room
    return frame
  match started with
  | .error t => .ended (.error t) m s
  | .ok frame =>
    runFor observe m.stack.depth turns { m with stack := m.stack.push frame }
      (observe s (.method frame.method.id .enter))

end Machine

end TracedMachine
