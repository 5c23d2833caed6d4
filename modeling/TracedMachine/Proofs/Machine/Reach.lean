import TracedMachine.Proofs.AllocCounters
import TracedMachine.Proofs.Machine.Call
import TracedMachine.Proofs.Machine.Step

/-!
# Proofs — Machine — Reach

How the turns of a call are put together, for proofs about the code of a method.  A turn runs the
instruction that is decoded where the innermost frame stands (`Machine.advance_eq`), and what comes
of it follows from what the instruction was planned to do (`Machine.turnOf_planned`) or, if it makes
an array, from what the store comes to (`Machine.turnOf_newArray`).

A machine *reaches* another one by turns that go on, and reports of memory what the turns report
(`Machine.Reaches`); it *ends* with a value if the last turn ends the call (`Machine.Ends`).
Stretches of turns are joined by `Reaches.trans` and `Reaches.ends`, and stretches that report
nothing of memory are chained as a relation (`Machine.Quietly`).

A call ends if the machine with the call's first frame does (`Machine.Ends.calls`).
-/

namespace TracedMachine

/-! ### What registers hold -/

theorem Word.toInt32_ofInt32 (n : Int32) : (Word.ofInt32 n).toInt32 = n := by
  apply Int32.toBitVec_inj.mp
  show n.toInt64.toBitVec.setWidth 32 = n.toBitVec
  rw [← BitVec.signExtend_eq_setWidth_of_le _ (by decide)]
  exact congrArg Int32.toBitVec (Int32.toInt32_toInt64 n)

theorem Word.toInt32_toUInt64 (n : Nat) : Word.toInt32 n.toUInt64 = Int32.ofNat n := by
  apply Int32.toBitVec_inj.mp
  show (BitVec.ofNat 64 n).setWidth 32 = BitVec.ofNat 32 n
  simp

theorem ObjectRef.ofRaw?_toWord (r : ObjectRef) : ofRaw? r.toWord.toNat = some r := by
  have hlt : r.slot < 0xffffffff := r.slot_lt
  have hnat : r.toWord.toNat = r.slot + 1 := by
    rw [toWord, raw, Nat.toUInt64_eq, UInt64.toNat_ofNat']
    omega
  rw [hnat, ofRaw?, if_neg (Nat.succ_ne_zero _), ofSlot?]
  exact dif_pos r.slot_lt

/-- What follows from a step that has gone well. -/
theorem bind_ok {ε α β : Type} {x : Except ε α} {next : α → Except ε β} {a : α} {b : Except ε β}
    (hx : x = .ok a) (hnext : next a = b) : x >>= next = b := by
  rw [hx]
  exact hnext

/-- A register that holds a reference gives its object. -/
theorem Registers.getObject_toWord {registers : Registers} {i : Nat} {r : ObjectRef}
    (h : registers.get i = .ok r.toWord) : registers.getObject i = .ok r := by
  have hne : r.toWord ≠ 0 := by
    intro hzero
    have hraw := r.ofRaw?_toWord
    rw [hzero] at hraw
    cases hraw
  have href : registers.getRef i = .ok (some r) := by
    refine bind_ok h ((if_neg hne).trans ?_)
    rw [r.ofRaw?_toWord]
    rfl
  exact bind_ok href rfl

/-! ### What the instruction does -/

namespace Frame

variable {f : Frame} {heap : Heap} {result w : Word} {pending : Option Throwable}
  {dst src array index : UInt8} {r : ObjectRef} {n : Int32}

theorem write_eq (hdst : f.registers.check dst.toNat = .ok ()) (w : Word) :
    f.write dst w = .ok (.register dst.toNat w) := by
  rw [write, hdst]
  rfl

theorem plan_arrayLength {length : Nat} (hobject : f.registers.getObject array.toNat = .ok r)
    (hlength : heap.arrayLength r = .ok length) (hdst : f.registers.check dst.toNat = .ok ()) :
    f.plan heap result pending (.arrayLength dst array) =
      .ok ⟨.register dst.toNat (.ofInt32 (.ofNat length)), .next 1⟩ :=
  bind_ok hobject (bind_ok hlength (bind_ok (write_eq hdst _) rfl))

theorem plan_arrayPut {k : Nat} (hsrc : f.registers.get src.toNat = .ok w)
    (hobject : f.registers.getObject array.toNat = .ok r)
    (hindex : f.registers.getInt index.toNat = .ok n) (hinside : heap.elementIndex r n = .ok k) :
    f.plan heap result pending (.arrayPut src array index) = .ok ⟨.element r k w, .next 2⟩ :=
  bind_ok hsrc (bind_ok hobject (bind_ok hindex (bind_ok hinside rfl)))

theorem plan_arrayGet (hobject : f.registers.getObject array.toNat = .ok r)
    (hindex : f.registers.getInt index.toNat = .ok n) (hget : heap.arrayGet r n = .ok w)
    (hdst : f.registers.check dst.toNat = .ok ()) :
    f.plan heap result pending (.arrayGet dst array index) = .ok ⟨.register dst.toNat w, .next 2⟩ :=
  bind_ok hobject (bind_ok hindex (bind_ok hget (bind_ok (write_eq hdst w) rfl)))

theorem plan_ifZero_zero {offset : Int16} {control : Control}
    (hsrc : f.registers.getInt src.toNat = .ok 0) (hinside : f.branch offset.toInt = .ok control) :
    f.plan heap result pending (.ifZero src offset) = .ok ⟨.nothing, control⟩ :=
  bind_ok hsrc (bind_ok hinside rfl)

theorem plan_ifZero_ne (hsrc : f.registers.getInt src.toNat = .ok n) (hn : n ≠ 0)
    (offset : Int16) :
    f.plan heap result pending (.ifZero src offset) = .ok ⟨.nothing, .next 2⟩ :=
  bind_ok hsrc (if_neg hn)

end Frame

/-- Making an array, if its class is found: what it comes to is up to the heap. -/
theorem Store.newArray_resolved {s s' : Store} {f : Frame} {dst : UInt8} {n : Int32}
    {classIndex : UInt16} {c : Class} {made : Except Throwable ObjectRef} {heap : Heap}
    {es more : List Event} (hn : 0 ≤ n.toInt)
    (hclass : s.resolveClass f.home classIndex.toNat = ⟨.ok c, s', es⟩)
    (hmade : s'.heap.allocateArray c n.toInt.toNat false = ⟨made, heap, more⟩)
    (hdst : f.registers.check dst.toNat = .ok ()) :
    s.newArray f dst n classIndex =
      ⟨made.map ObjectRef.toWord, { s' with heap }, es ++ more⟩ := by
  unfold newArray
  rw [if_neg (Int.not_lt.mpr hn), hclass]
  dsimp only
  rw [hmade, hdst]
  cases made <;> rfl

namespace Machine

variable {base : Nat} {m m' m₁ m₂ : Machine} {allocs more : List AllocEvent} {es : List Event}
  {value : Except Throwable Word}

/-! ### One turn -/

/-- The turn that runs an instruction in the innermost frame `f`. -/
def turnOf (m : Machine) (base : Nat) (f : Frame) (i : Instruction) : Turn :=
  let done := m.execute f i
  let events := .instruction i.opcode :: .notice (.executing f.method.name f.pc i) :: done.events
  match done.value with
  | .ok control => done.state.follow base events control
  | .error t => done.state.handle base t events

/-- A turn runs the instruction that is decoded where the innermost frame stands. -/
theorem advance_eq {f : Frame} {rest : List Frame} {i : Instruction}
    (hf : m.stack.frames = f :: rest) (hi : decodeAt f.method.code f.pc = .ok i) :
    m.advance base = m.turnOf base f i := by
  unfold advance
  rw [step_eq hf, hi]
  rfl

/-- A turn with an instruction that was planned. -/
theorem turnOf_planned {f : Frame} {i : Instruction} {p : Plan}
    (hnew : ∀ dst length classIndex, i ≠ .newArray dst length classIndex)
    (hp : f.plan m.store.heap m.stack.result m.stack.pending i = .ok p) :
    m.turnOf base f i =
      (m.apply p.change).follow base
        [.instruction i.opcode, .notice (.executing f.method.name f.pc i)] p.control := by
  have hexecute : m.execute f i = ⟨.ok p.control, m.apply p.change, []⟩ := by
    unfold execute
    split
    · next dst length classIndex => exact absurd rfl (hnew dst length classIndex)
    · rw [hp]
  rw [turnOf, hexecute]

section

variable {f : Frame} {dst length : UInt8} {classIndex : UInt16} {n : Int32} {s : Store}

/-- The events of a turn that makes an array, those of the store last. -/
def newArrayEvents (f : Frame) (dst length : UInt8) (classIndex : UInt16) (n : Int32)
    (es : List Event) : List Event :=
  .instruction .newArray ::
    .notice (.executing f.method.name f.pc (.newArray dst length classIndex)) ::
    .notice (.newArray dst n classIndex) :: es

theorem allocEvents_newArrayEvents :
    allocEvents (newArrayEvents f dst length classIndex n es) = allocEvents es := rfl

/-- A turn that makes an array. -/
theorem turnOf_newArray {w : Word} (hlength : f.registers.getInt length.toNat = .ok n)
    (hmade : m.store.newArray f dst n classIndex = ⟨.ok w, s, es⟩) :
    m.turnOf base f (.newArray dst length classIndex) =
      (apply ⟨m.stack, s⟩ (.register dst.toNat w)).follow base
        (newArrayEvents f dst length classIndex n es) (.next 2) := by
  unfold turnOf execute
  dsimp only
  rw [hlength]
  dsimp only
  rw [newArray_eq, hmade]
  rfl

/-- A turn that fails to make an array. -/
theorem turnOf_newArray_failed {t : Throwable} (hlength : f.registers.getInt length.toNat = .ok n)
    (hfailed : m.store.newArray f dst n classIndex = ⟨.error t, s, es⟩) :
    m.turnOf base f (.newArray dst length classIndex) =
      handle ⟨m.stack, s⟩ base t (newArrayEvents f dst length classIndex n es) := by
  unfold turnOf execute
  dsimp only
  rw [hlength]
  dsimp only
  rw [newArray_eq, hfailed]
  rfl

end

/-! ### Turns that go on -/

/-- Some number of turns lead from one machine to another, and report this of memory. -/
inductive Reaches (base : Nat) : Machine → List AllocEvent → Machine → Prop where
  | refl (m : Machine) : Reaches base m [] m
  | turn {m m₁ m' : Machine} {es : List Event} {allocs : List AllocEvent}
      (goes : m.advance base = .goesOn m₁ es) (rest : Reaches base m₁ allocs m') :
      Reaches base m (allocEvents es ++ allocs) m'

theorem Reaches.one (goes : m.advance base = .goesOn m' es) (hes : allocEvents es = allocs) :
    Reaches base m allocs m' := by
  have h := Reaches.turn goes (.refl m')
  rwa [List.append_nil, hes] at h

theorem Reaches.trans (h₁ : Reaches base m allocs m₁) (h₂ : Reaches base m₁ more m₂) :
    Reaches base m (allocs ++ more) m₂ := by
  induction h₁ with
  | refl => exact h₂
  | turn goes _ ih =>
      rw [List.append_assoc]
      exact .turn goes (ih h₂)

/-- Some number of turns lead from one machine to another, and report nothing of memory. -/
def Quietly (base : Nat) (m m' : Machine) : Prop := Reaches base m [] m'

theorem Quietly.trans (h₁ : Quietly base m m₁) (h₂ : Quietly base m₁ m₂) : Quietly base m m₂ :=
  Reaches.trans h₁ h₂

instance (base : Nat) : Trans (Quietly base) (Quietly base) (Quietly base) := ⟨Quietly.trans⟩

/-! ### The last turn -/

/-- Some number of turns end the call with a value, and report this of memory. -/
def Ends (base : Nat) (m : Machine) (allocs : List AllocEvent) (value : Except Throwable Word)
    (m' : Machine) : Prop :=
  ∃ turns es, runFor report base turns m [] = .ended value m' es ∧ allocEvents es = allocs

theorem Ends.one (ended : m.advance base = .ended value m' es) (hes : allocEvents es = allocs) :
    Ends base m allocs value m' := by
  refine ⟨1, es, ?_, hes⟩
  unfold runFor
  rw [ended]
  exact congrArg (Run.ended value m') (foldl_report [] es)

/-- What was reported before a run stands before what the run reports. -/
theorem runFor_report (base turns : Nat) (m : Machine) (before : List Event) :
    runFor report base turns m before = (runFor report base turns m []).map (before ++ ·) := by
  have h := runFor_observe report base turns m [] before
  simp only [foldl_report, List.append_nil] at h
  exact h

theorem Ends.turn (goes : m.advance base = .goesOn m₁ es) (h : Ends base m₁ allocs value m') :
    Ends base m (allocEvents es ++ allocs) value m' := by
  obtain ⟨turns, later, hrun, rfl⟩ := h
  refine ⟨turns + 1, es ++ later, ?_, allocEvents_append es later⟩
  unfold runFor
  rw [goes]
  show runFor report base turns m₁ (es.foldl report []) = _
  rw [foldl_report, List.nil_append, runFor_report, hrun]
  rfl

theorem Reaches.ends (h₁ : Reaches base m allocs m₁) (h₂ : Ends base m₁ more value m') :
    Ends base m (allocs ++ more) value m' := by
  induction h₁ with
  | refl => exact h₂
  | turn goes _ ih =>
      rw [List.append_assoc]
      exact .turn goes (ih h₂)

/-- **A call ends** as the machine does that has the call's first frame. -/
theorem Ends.calls {home : Module} {index : Nat} {args : List Word} {f : Frame}
    (hfirst : firstFrame home index args = .ok f) (hroom : m.stack.room = .ok ())
    (h : Ends m.stack.depth { m with stack := m.stack.push f } allocs value m') :
    ∃ es, m.Calls home index args value m' es ∧ allocEvents es = allocs := by
  obtain ⟨turns, es, hrun, rfl⟩ := h
  refine ⟨.method f.method.id .enter :: es, ⟨turns, ?_⟩, rfl⟩
  have hstarted : (do let frame ← firstFrame home index args; m.stack.room; return frame :
      Except Throwable Frame) = .ok f := by
    rw [hfirst, hroom]
    rfl
  unfold invokeFor
  rw [hstarted]
  show runFor report m.stack.depth turns _ [.method f.method.id .enter] = _
  rw [runFor_report, hrun]
  rfl

end Machine

end TracedMachine
