import TracedMachine.Machine

/-!
# Proofs — Machine — Step

What one instruction does to a machine, in a form that shows what it depends on.

A change has a part for the stack and a part for the heap (`Change.onStack`, `Change.onHeap`), and
making an array has a part that knows the store only (`Store.newArray`) and then writes a register.
So an instruction leaves the stack as one change does, and as it was if it throws
(`Machine.stack_step`).  In particular the methods that are being run stay the same
(`Machine.calls_step`).

What an instruction can be planned to do is said once, by the cases of `Frame.Planned`, and what a
step can come to that does not throw by `Machine.step_ok`.
-/

namespace TracedMachine

/-! ### The innermost frame -/

namespace Stack

/-- The methods that are being run, the innermost first. -/
def calls (s : Stack) : List MethodId := s.frames.map (·.method.id)

section

variable (s : Stack) (change : Frame → Frame)

@[simp] theorem frames_modifyTop : (s.modifyTop change).frames = s.frames.modifyHead change := by
  rcases s with ⟨_ | ⟨f, rest⟩, _, _, _, _, _⟩ <;> rfl

@[simp] theorem result_modifyTop : (s.modifyTop change).result = s.result := by
  rcases s with ⟨_ | ⟨f, rest⟩, _, _, _, _, _⟩ <;> rfl

@[simp] theorem pending_modifyTop : (s.modifyTop change).pending = s.pending := by
  rcases s with ⟨_ | ⟨f, rest⟩, _, _, _, _, _⟩ <;> rfl

@[simp] theorem limit_modifyTop : (s.modifyTop change).limit = s.limit := by
  rcases s with ⟨_ | ⟨f, rest⟩, _, _, _, _, _⟩ <;> rfl

end

theorem frames_modifyTop_ne_nil {s : Stack} (h : s.frames ≠ []) (change : Frame → Frame) :
    (s.modifyTop change).frames ≠ [] := by
  obtain ⟨f, rest, hf⟩ := List.exists_cons_of_ne_nil h
  rw [frames_modifyTop, hf]
  exact List.cons_ne_nil _ _

/-- A change of the innermost frame that leaves its method leaves all methods. -/
theorem calls_modifyTop (s : Stack) {change : Frame → Frame}
    (h : ∀ f, (change f).method = f.method) : (s.modifyTop change).calls = s.calls := by
  rw [calls, frames_modifyTop, calls]
  cases s.frames with
  | nil => rfl
  | cons f rest => exact congrArg (·.id :: rest.map _) (h f)

section

variable {s : Stack} {f : Frame} {rest : List Frame} {t : Throwable} {count : Nat}

/-- A frame with a handler goes on there. -/
theorem unwindTop_caught {handler : Nat} (hf : s.frames = f :: rest)
    (h : f.method.handler? f.pc t.kind = some handler) :
    unwindTop t (count + 1) s =
      ⟨s.modifyTop fun f => { f with pc := handler }, true,
        [.notice (.caught t f.method.name f.pc)]⟩ := by
  simp only [unwindTop, hf, h]

/-- A frame without a handler is left. -/
theorem unwindTop_left (hf : s.frames = f :: rest)
    (h : f.method.handler? f.pc t.kind = none) :
    unwindTop t (count + 1) s =
      { unwindTop t count s.pop with
        events := .method f.method.id .unwind :: (unwindTop t count s.pop).events } := by
  simp only [unwindTop, hf, h]

end

end Stack

/-! ### Changes -/

namespace Change

/-- What a change does to the stack. -/
def onStack (c : Change) (s : Stack) : Stack :=
  match c with
  | .nothing | .element .. => s
  | .register index w => s.modifyTop fun f => { f with registers := f.registers.store index w }
  | .takePending index w =>
    { s.modifyTop fun f => { f with registers := f.registers.store index w } with pending := none }

/-- What a change does to the heap. -/
def onHeap (c : Change) (h : Heap) : Heap :=
  match c with
  | .element object index w => h.store object index w
  | .nothing | .register .. | .takePending .. => h

theorem calls_onStack (c : Change) (s : Stack) : (c.onStack s).calls = s.calls := by
  cases c with
  | nothing | element => rfl
  | register index w => exact s.calls_modifyTop fun _ => rfl
  | takePending index w => exact s.calls_modifyTop fun _ => rfl

/-- A change leaves all frames but the innermost. -/
theorem tail_onStack (c : Change) (s : Stack) : (c.onStack s).frames.tail = s.frames.tail := by
  cases c with
  | nothing | element => rfl
  | register index w => rw [onStack, Stack.frames_modifyTop, List.tail_modifyHead]
  | takePending index w => simp only [onStack, Stack.frames_modifyTop, List.tail_modifyHead]

end Change

namespace Machine

theorem apply_eq (m : Machine) (c : Change) :
    m.apply c = ⟨c.onStack m.stack, { m.store with heap := c.onHeap m.store.heap }⟩ := by
  cases c <;> rfl

end Machine

/-! ### Plans -/

/-- The instruction takes the pending throwable. -/
def Instruction.takesPending : Instruction → Bool
  | moveException _ => true
  | _ => false

/-- What goes well in two steps has gone well in both. -/
theorem bind_eq_ok {ε α β : Type} {x : Except ε α} {next : α → Except ε β} {b : β}
    (h : x >>= next = .ok b) : ∃ a, x = .ok a ∧ next a = .ok b := by
  cases x with
  | error e => cases h
  | ok a => exact ⟨a, rfl, h⟩

namespace Registers

@[simp] theorem size_zeroed (count : Nat) : (zeroed count).size = count := Array.size_replicate

@[simp] theorem size_store (r : Registers) (i : Nat) (w : Word) : (r.store i w).size = r.size :=
  Array.size_setIfInBounds

theorem size_loadArgs {r r' : Registers} {args : List Word} (h : r.loadArgs args = .ok r') :
    r'.size = r.size := by
  unfold loadArgs at h
  split at h
  · next hfit =>
    cases h
    simp only [size, Array.size_append, Array.take_eq_extract, Array.size_extract,
      List.size_toArray] at hfit ⊢
    omega
  · cases h

end Registers

namespace Frame

/-- The frame stands at the start of a method of the module, with that method's registers. -/
structure Enters (f : Frame) (home : Module) (index : Nat) : Prop where
  home_eq : f.home = home
  method_eq : home.method? index = some f.method
  pc_eq : f.pc = 0
  size_eq : f.registers.size = f.method.registers

/-- A call enters a method of the caller's module, with as many arguments as the method takes. -/
theorem callee_ok {f g : Frame} {count : UInt8} {index first : UInt16}
    (h : f.callee count index first = .ok g) :
    g.Enters f.home index.toNat ∧ count.toNat = g.method.ins := by
  unfold callee at h
  split at h
  · cases h
  · next m hm =>
    split at h
    · cases h
    · next hcount =>
      obtain ⟨args, -, h⟩ := bind_eq_ok h
      obtain ⟨registers, hregisters, h⟩ := bind_eq_ok h
      cases h
      have hsize := Registers.size_loadArgs hregisters
      rw [enter, Registers.size_zeroed] at hsize
      exact ⟨⟨rfl, hm, rfl, hsize⟩, Decidable.of_not_not hcount⟩

/-- So does a call from outside. -/
theorem firstFrame_ok {f : Frame} {home : Module} {index : Nat} {args : List Word}
    (h : Machine.firstFrame home index args = .ok f) :
    f.Enters home index ∧ args.length = f.method.ins := by
  unfold Machine.firstFrame at h
  split at h
  · cases h
  · next m hm =>
    split at h
    · cases h
    · next hcount =>
      obtain ⟨registers, hregisters, h⟩ := bind_eq_ok h
      cases h
      have hsize := Registers.size_loadArgs hregisters
      rw [enter, Registers.size_zeroed] at hsize
      exact ⟨⟨rfl, hm, rfl, hsize⟩, Decidable.of_not_not hcount⟩

/-- **What an instruction can be planned to do**, if it does not throw. -/
inductive Planned (f : Frame) (heap : Heap) : Instruction → Plan → Prop where
  /-- A register is written, if anything, and control goes on. -/
  | moves {i : Instruction} {change : Change} (apart : ∀ h, change.onHeap h = h)
      (pending : ∀ s, (change.onStack s).pending = if i.takesPending then none else s.pending) :
      Planned f heap i ⟨change, .next i.width⟩
  /-- An element of an object is written, and control goes on. -/
  | stores {src array index : UInt8} {object : ObjectRef} {n : Int32} {k : Nat} {w : Word}
      (value : f.registers.get src.toNat = .ok w)
      (target : f.registers.getObject array.toNat = .ok object)
      (place : f.registers.getInt index.toNat = .ok n)
      (valid : heap.elementIndex object n = .ok k) :
      Planned f heap (.arrayPut src array index) ⟨.element object k w, .next 2⟩
  /-- Control goes to another address of the method. -/
  | jumps {offset : Int8} {target : Nat} (inside : f.branch offset.toInt = .ok (.jump target)) :
      Planned f heap (.goto offset) ⟨.nothing, .jump target⟩
  /-- A register is zero, and control goes to another address of the method. -/
  | branches {src : UInt8} {offset : Int16} {target : Nat}
      (inside : f.branch offset.toInt = .ok (.jump target)) :
      Planned f heap (.ifZero src offset) ⟨.nothing, .jump target⟩
  /-- A method is called. -/
  | calls {count : UInt8} {index first : UInt16} {g : Frame}
      (called : f.callee count index first = .ok g) :
      Planned f heap (.invoke count index first) ⟨.nothing, .call g⟩
  /-- The method is left without a result. -/
  | leaves : Planned f heap .returnVoid ⟨.nothing, .leave 0⟩
  /-- The method is left with a result. -/
  | answers {src : UInt8} {w : Word} (value : f.registers.get src.toNat = .ok w) :
      Planned f heap (.returnValue src) ⟨.nothing, .leave w⟩

theorem branch_ok {f : Frame} {offset : Int} {c : Control} (h : f.branch offset = .ok c) :
    ∃ target, c = .jump target := by
  unfold branch at h
  dsimp only at h
  split at h
  · cases h
    exact ⟨_, rfl⟩
  · cases h

theorem write_ok {f : Frame} {index : UInt8} {w : Word} {c : Change}
    (h : f.write index w = .ok c) : c = .register index.toNat w := by
  unfold write at h
  cases hcheck : f.registers.check index.toNat with
  | error e =>
      rw [hcheck] at h
      cases h
  | ok _ =>
      rw [hcheck] at h
      cases h
      rfl

/-- An instruction that writes a register and goes on. -/
theorem Planned.written {f : Frame} {heap : Heap} {i : Instruction} {index : UInt8} {w : Word}
    {p : Plan} (hkept : i.takesPending = false)
    (h : (do return { change := ← f.write index w, control := .next i.width } :
      Except Throwable Plan) = .ok p) : f.Planned heap i p := by
  obtain ⟨c, hc, h⟩ := bind_eq_ok h
  cases h
  rw [write_ok hc]
  refine .moves (fun _ => rfl) fun s => ?_
  rw [hkept]
  exact s.pending_modifyTop _

/-- **A plan is one of these.** -/
theorem plan_ok {f : Frame} {heap : Heap} {result : Word} {pending : Option Throwable}
    {i : Instruction} {p : Plan} (h : f.plan heap result pending i = .ok p) :
    f.Planned heap i p := by
  cases i with
  | nop | newArray =>
      cases h
      exact .moves (fun _ => rfl) fun _ => rfl
  | move dst src =>
      obtain ⟨w, -, h⟩ := bind_eq_ok h
      exact .written rfl h
  | moveResult dst => exact .written rfl h
  | moveException dst =>
      cases pending with
      | none => cases h
      | some t =>
          obtain ⟨_, -, h⟩ := bind_eq_ok h
          cases h
          exact .moves (fun _ => rfl) fun _ => rfl
  | returnVoid =>
      cases h
      exact .leaves
  | returnValue src =>
      obtain ⟨w, hw, h⟩ := bind_eq_ok h
      cases h
      exact .answers hw
  | const dst value => exact .written rfl h
  | arrayLength dst array =>
      obtain ⟨object, -, h⟩ := bind_eq_ok h
      obtain ⟨length, -, h⟩ := bind_eq_ok h
      exact .written rfl h
  | throwNew code =>
      simp only [plan] at h
      split at h <;> cases h
  | goto offset =>
      obtain ⟨c, hc, h⟩ := bind_eq_ok h
      obtain ⟨target, rfl⟩ := branch_ok hc
      cases h
      exact .jumps hc
  | ifZero src offset =>
      obtain ⟨n, -, h⟩ := bind_eq_ok h
      by_cases hzero : n = 0
      · rw [if_pos hzero] at h
        obtain ⟨c, hc, h⟩ := bind_eq_ok h
        obtain ⟨target, rfl⟩ := branch_ok hc
        cases h
        exact .branches hc
      · rw [if_neg hzero] at h
        cases h
        exact .moves (fun _ => rfl) fun _ => rfl
  | arrayGet dst array index =>
      obtain ⟨object, -, h⟩ := bind_eq_ok h
      obtain ⟨n, -, h⟩ := bind_eq_ok h
      obtain ⟨w, -, h⟩ := bind_eq_ok h
      exact .written rfl h
  | arrayPut src array index =>
      obtain ⟨w, hw, h⟩ := bind_eq_ok h
      obtain ⟨object, hobject, h⟩ := bind_eq_ok h
      obtain ⟨n, hn, h⟩ := bind_eq_ok h
      obtain ⟨k, hk, h⟩ := bind_eq_ok h
      cases h
      exact .stores hw hobject hn hk
  | addInt dst lhs rhs =>
      obtain ⟨a, -, h⟩ := bind_eq_ok h
      obtain ⟨b, -, h⟩ := bind_eq_ok h
      exact .written rfl h
  | invoke count index first =>
      obtain ⟨g, hg, h⟩ := bind_eq_ok h
      cases h
      exact .calls hg

end Frame

/-! ### Making an array -/

/-- Makes an array for a frame, and gives the word for its register. -/
def Store.newArray (s : Store) (f : Frame) (dst : UInt8) (length : Int32) (classIndex : UInt16) :
    Outcome Store Event (Except Throwable Word) :=
  if length.toInt < 0 then
    { value := .error (.negativeArraySize length.toInt), state := s, events := [] }
  else
    let resolved := s.resolveClass f.home classIndex.toNat
    match resolved.value with
    | .error e => { value := .error e, state := resolved.state, events := resolved.events }
    | .ok c =>
      let made := resolved.state.heap.allocateArray c length.toInt.toNat false
      { value := do
          let object ← made.value
          f.registers.check dst.toNat
          return object.toWord
        state := { resolved.state with heap := made.state }
        events := resolved.events ++ made.events }

namespace Machine

/-- The machine with the register of a made array written, if one was made. -/
def receive (m : Machine) (dst : UInt8) (made : Outcome Store Event (Except Throwable Word)) :
    Machine :=
  match made.value with
  | .error _ => ⟨m.stack, made.state⟩
  | .ok w => apply ⟨m.stack, made.state⟩ (.register dst.toNat w)

/-- Making an array is work on the store, and then a register is written. -/
theorem newArray_eq (m : Machine) (f : Frame) (dst : UInt8) (length : Int32)
    (classIndex : UInt16) :
    let made := m.store.newArray f dst length classIndex
    m.newArray f dst length classIndex =
      { value := made.value.map fun _ => (), state := m.receive dst made
        events := made.events } := by
  unfold newArray Store.newArray
  by_cases hneg : length.toInt < 0
  · simp only [if_pos hneg]
    rfl
  · simp only [if_neg hneg]
    rcases m.store.resolveClass f.home classIndex.toNat with ⟨_ | c, ⟨heap, classes, caches⟩, es⟩
    · rfl
    · dsimp only
      rcases heap.allocateArray c length.toInt.toNat false with ⟨_ | object, heap, more⟩
      · rfl
      · dsimp only
        cases f.registers.check dst.toNat <;> rfl

/-- What a made array leaves of the stack is what one change leaves of it. -/
theorem stack_receive (m : Machine) (dst : UInt8)
    (made : Outcome Store Event (Except Throwable Word)) :
    ∃ c : Change, (m.receive dst made).stack = c.onStack m.stack ∧
      ∀ e, made.value = .error e → c = .nothing := by
  rcases made with ⟨e | w, store, es⟩
  · exact ⟨.nothing, rfl, fun _ _ => rfl⟩
  · exact ⟨.register dst.toNat w, congrArg Machine.stack (apply_eq _ _), fun e he => nomatch he⟩

/-- An array that is made goes into a register. -/
theorem stack_newArray {m : Machine} {f : Frame} {dst : UInt8} {length : Int32}
    {classIndex : UInt16} {u : Unit} (h : (m.newArray f dst length classIndex).value = .ok u) :
    ∃ w, (m.newArray f dst length classIndex).state.stack =
      (Change.register dst.toNat w).onStack m.stack := by
  rw [newArray_eq] at h ⊢
  cases hmade : (m.store.newArray f dst length classIndex).value with
  | error e =>
      simp only [hmade] at h
      cases h
  | ok w =>
      simp only [receive, hmade, apply_eq]
      exact ⟨w, rfl⟩

/-! ### Instructions -/

/-- An instruction leaves the stack as one change does, and as it was if it throws. -/
theorem stack_execute (m : Machine) (f : Frame) (i : Instruction) :
    ∃ c : Change, (m.execute f i).state.stack = c.onStack m.stack ∧
      ∀ e, (m.execute f i).value = .error e → c = .nothing := by
  unfold execute
  split
  · next dst length classIndex =>
    split
    · exact ⟨.nothing, rfl, fun _ _ => rfl⟩
    · next n _ =>
      obtain ⟨c, hstack, hthrown⟩ :=
        m.stack_receive dst (m.store.newArray f dst n classIndex)
      rw [newArray_eq]
      refine ⟨c, hstack, fun e he => ?_⟩
      cases hvalue : (m.store.newArray f dst n classIndex).value with
      | error e' => exact hthrown e' hvalue
      | ok w =>
          simp only [hvalue] at he
          cases he
  · split
    · exact ⟨.nothing, rfl, fun _ _ => rfl⟩
    · next p _ =>
      exact ⟨p.change, congrArg Machine.stack (m.apply_eq p.change), fun e he => nomatch he⟩

/-- A step is an instruction of the innermost frame, if there is one where the frame stands. -/
theorem step_eq {m : Machine} {f : Frame} {rest : List Frame} (hf : m.stack.frames = f :: rest) :
    m.step =
      match decodeAt f.method.code f.pc with
      | .error e => { value := .error (.verify (.undecodable e)), state := m, events := [] }
      | .ok i =>
        { m.execute f i with
          events := .instruction i.opcode :: .notice (.executing f.method.name f.pc i) ::
            (m.execute f i).events } := by
  rcases m with ⟨⟨frames, depth, result, pending, limit, depth_eq⟩, store⟩
  cases hf
  rfl

/-- A step leaves the stack as one change does, and as it was if it throws. -/
theorem stack_step (m : Machine) :
    ∃ c : Change, m.step.state.stack = c.onStack m.stack ∧
      ∀ e, m.step.value = .error e → c = .nothing := by
  cases hf : m.stack.frames with
  | nil =>
      simp only [step, hf]
      exact ⟨.nothing, rfl, fun _ _ => rfl⟩
  | cons f rest =>
      rw [step_eq hf]
      cases decodeAt f.method.code f.pc with
      | error e => exact ⟨.nothing, rfl, fun _ _ => rfl⟩
      | ok i => exact m.stack_execute f i

/-- **What a step can come to** that does not throw: an array is made and control goes on, or the
instruction does what it was planned to do. -/
theorem step_ok {m : Machine} {control : Control} (h : m.step.value = .ok control) :
    ∃ f rest i, m.stack.frames = f :: rest ∧ decodeAt f.method.code f.pc = .ok i ∧
      ((∃ dst length classIndex, (i = .newArray dst length classIndex ∧
            ∃ w, m.step.state.stack = (Change.register dst.toNat w).onStack m.stack) ∧
          control = .next i.width) ∨
        ∃ change, f.Planned m.store.heap i ⟨change, control⟩ ∧ m.step.state = m.apply change) := by
  cases hf : m.stack.frames with
  | nil =>
      simp only [step, hf] at h
      cases h
  | cons f rest =>
      rw [step_eq hf] at h ⊢
      cases hi : decodeAt f.method.code f.pc with
      | error e =>
          rw [hi] at h
          cases h
      | ok i =>
          refine ⟨f, rest, i, rfl, hi, ?_⟩
          simp only [hi] at h ⊢
          unfold execute at h ⊢
          split at h
          · next dst length classIndex =>
            cases hlength : f.registers.getInt length.toNat with
            | error e =>
                rw [hlength] at h
                cases h
            | ok n =>
                simp only [hlength] at h
                cases hmade : (m.newArray f dst n classIndex).value with
                | error e =>
                    rw [hmade] at h
                    cases h
                | ok _ =>
                    rw [hmade] at h
                    cases h
                    exact .inl ⟨dst, length, classIndex, ⟨rfl, stack_newArray hmade⟩, rfl⟩
          · cases hp : f.plan m.store.heap m.stack.result m.stack.pending i with
            | error e =>
                rw [hp] at h
                cases h
            | ok p =>
                simp only [hp] at h ⊢
                cases h
                exact .inr ⟨p.change, Frame.plan_ok hp, rfl⟩

/-- A step leaves the methods that are being run. -/
theorem calls_step (m : Machine) : m.step.state.stack.calls = m.stack.calls := by
  obtain ⟨c, hstack, -⟩ := m.stack_step
  rw [hstack, c.calls_onStack]

end Machine

end TracedMachine
