import TracedMachine.Proofs.Machine.Call
import TracedMachine.Proofs.Machine.Step

/-!
# Proofs — Machine — Alone

A call sees no frame but its own.  A machine is compared with the same machine *alone*: without the
frames of its stack, and with a limit that is lower by their number (`Machine.alone`).

**Independence** (`Machine.call_sees_its_own_frames`).  A call ends on a machine if and only if it
ends on the machine alone, and then it comes to the same, except that a stack overflow counts more
frames where there are more.  The frames that were there before the call are the ones that are there
after it.

The two runs go in lockstep.  A machine is *over* the frames of a stack if its own frames stand on
top of them and the rest is the same (`Machine.Over`).  Of two machines, one alone and one over some
frames, an instruction does the same to both (`Machine.Over.step`), since it reads no frame but the
innermost; so does where control goes after it (`Machine.Over.follow`), since leaving and unwinding
stop above the frames below.  As long as the call has not ended, the machine alone has a frame.
-/

namespace TracedMachine

/-! ### The number of frames in a stack overflow -/

/-- A throwable without the number of frames that a stack overflow tells. -/
def Throwable.uncounted : Throwable → Throwable
  | stackOverflow _ => stackOverflow 0
  | t => t

/-- An event without the number of frames that a caught stack overflow tells the log. -/
def Event.uncounted : Event → Event
  | .notice (.caught t name pc) => .notice (.caught t.uncounted name pc)
  | e => e

theorem Throwable.kind_uncounted (t : Throwable) : t.uncounted.kind = t.kind := by
  cases t <;> rfl

/-- Throwables that differ in the number of frames at most are of one kind. -/
theorem Throwable.kind_eq {t₀ t : Throwable} (h : t.uncounted = t₀.uncounted) :
    t.kind = t₀.kind := by
  rw [← t.kind_uncounted, h, t₀.kind_uncounted]

namespace Stack

/-! ### Stacks over other frames -/

/-- The stack without its frames, and with room for as many more as it had room for. -/
def alone (s : Stack) : Stack :=
  { s with frames := [], depth := 0, limit := s.limit - s.depth, depth_eq := rfl }

/-- `s` is `s₀` on top of the frames of `below`. -/
structure Over (below s₀ s : Stack) : Prop where
  frames : s.frames = s₀.frames ++ below.frames
  result : s.result = s₀.result
  pending : s.pending.map Throwable.uncounted = s₀.pending.map Throwable.uncounted
  limit : s.limit = below.limit
  limit_alone : s₀.limit = below.limit - below.depth

theorem over_alone (s : Stack) : Over s s.alone s := ⟨rfl, rfl, rfl, rfl, rfl⟩

namespace Over

variable {below s₀ s : Stack}

theorem depth (h : Over below s₀ s) : s.depth = s₀.depth + below.depth := by
  rw [s.depth_eq, h.frames, List.length_append, ← s₀.depth_eq, ← below.depth_eq]

theorem push (h : Over below s₀ s) (f : Frame) : Over below (s₀.push f) (s.push f) where
  frames := congrArg (f :: ·) h.frames
  result := h.result
  pending := h.pending
  limit := h.limit
  limit_alone := h.limit_alone

theorem pop (h : Over below s₀ s) (hne : s₀.frames ≠ []) : Over below s₀.pop s.pop where
  frames := by
    show s.frames.tail = s₀.frames.tail ++ below.frames
    rw [h.frames, List.tail_append_of_ne_nil hne]
  result := h.result
  pending := h.pending
  limit := h.limit
  limit_alone := h.limit_alone

theorem modifyTop (h : Over below s₀ s) (hne : s₀.frames ≠ []) (change : Frame → Frame) :
    Over below (s₀.modifyTop change) (s.modifyTop change) where
  frames := by
    rw [frames_modifyTop, frames_modifyTop, h.frames]
    obtain ⟨f, rest, hf⟩ := List.exists_cons_of_ne_nil hne
    rw [hf]
    rfl
  result := by simpa using h.result
  pending := by simpa using h.pending
  limit := by simpa using h.limit
  limit_alone := by simpa using h.limit_alone

theorem onStack (h : Over below s₀ s) (hne : s₀.frames ≠ []) (c : Change) :
    Over below (c.onStack s₀) (c.onStack s) := by
  cases c with
  | nothing | element => exact h
  | register index w => exact h.modifyTop hne _
  | takePending index w => exact { h.modifyTop hne _ with pending := rfl }

/-- There is room on one stack if and only if there is room on the other. -/
theorem room (h : Over below s₀ s) :
    s₀.room = .ok () ∧ s.room = .ok () ∨
      ∃ t₀ t, s₀.room = .error t₀ ∧ s.room = .error t ∧ t.uncounted = t₀.uncounted := by
  have hfull : s.limit ≤ s.depth ↔ s₀.limit ≤ s₀.depth := by
    rw [h.limit, h.limit_alone, h.depth]
    omega
  unfold Stack.room
  by_cases hroom : s₀.limit ≤ s₀.depth
  · rw [if_pos hroom, if_pos (hfull.mpr hroom)]
    exact .inr ⟨_, _, rfl, rfl, rfl⟩
  · rw [if_neg hroom, if_neg (mt hfull.mp hroom)]
    exact .inl ⟨rfl, rfl⟩

/-- What is left of two stacks after a throwable has looked for a handler above the frames below:
the same, and no frame above them unless it was caught. -/
structure Unwound (below : Stack) (u₀ u : Stack.Unwound) : Prop where
  stack : Over below u₀.stack u.stack
  caught : u.caught = u₀.caught
  events : u.events.map Event.uncounted = u₀.events.map Event.uncounted
  inside : u₀.caught = true → u₀.stack.frames ≠ []
  outside : u₀.caught = false → u₀.stack.frames = []

theorem unwindTop {t₀ t : Throwable} (ht : t.uncounted = t₀.uncounted) {count : Nat}
    (h : Over below s₀ s) (hcount : s₀.frames.length = count) :
    Unwound below (Stack.unwindTop t₀ count s₀) (Stack.unwindTop t count s) := by
  induction count generalizing s₀ s with
  | zero =>
      have hnil : s₀.frames = [] := List.eq_nil_of_length_eq_zero hcount
      exact ⟨h, rfl, rfl, (fun hc => nomatch hc), fun _ => hnil⟩
  | succ count ih =>
      obtain ⟨f, rest, hf⟩ := List.exists_cons_of_length_eq_add_one hcount
      have hne : s₀.frames ≠ [] := by rw [hf]; exact List.cons_ne_nil f rest
      have hs : s.frames = f :: (rest ++ below.frames) := by rw [h.frames, hf]; rfl
      cases hhandler : f.method.handler? f.pc t₀.kind with
      | some handler =>
          rw [unwindTop_caught hf hhandler,
            unwindTop_caught hs (Throwable.kind_eq ht ▸ hhandler)]
          refine ⟨h.modifyTop hne _, rfl, ?_, fun _ => frames_modifyTop_ne_nil hne _,
            (fun hc => nomatch hc)⟩
          simp only [List.map_cons, List.map_nil, Event.uncounted, ht]
      | none =>
          rw [unwindTop_left hf hhandler, unwindTop_left hs (Throwable.kind_eq ht ▸ hhandler)]
          have hpop : s₀.pop.frames.length = count := by
            show s₀.frames.tail.length = count
            rw [List.length_tail, hcount]
            rfl
          have hu := ih (h.pop hne) hpop
          exact
            { stack := hu.stack
              caught := hu.caught
              events := congrArg (Event.method f.method.id .unwind :: ·) hu.events
              inside := hu.inside
              outside := hu.outside }

theorem unwind {t₀ t : Throwable} (ht : t.uncounted = t₀.uncounted) (h : Over below s₀ s) :
    Unwound below (s₀.unwind t₀ 0) (s.unwind t below.depth) := by
  have hcount : s.depth - below.depth = s₀.depth - 0 := by rw [h.depth]; omega
  unfold Stack.unwind
  rw [hcount]
  exact h.unwindTop ht s₀.depth_eq.symm

end Over

end Stack

/-! ### One turn -/

/-- An instruction is planned from the kind of the pending throwable. -/
theorem Frame.plan_congr (f : Frame) (heap : Heap) (result : Word) {p₀ p : Option Throwable}
    (h : p.map Throwable.uncounted = p₀.map Throwable.uncounted) (i : Instruction) :
    f.plan heap result p i = f.plan heap result p₀ i := by
  cases i with
  | moveException dst =>
      cases p with
      | none =>
          cases p₀ with
          | none => rfl
          | some t₀ => cases h
      | some t =>
          cases p₀ with
          | none => cases h
          | some t₀ =>
              have hkind := Throwable.kind_eq (Option.some.inj h)
              simp only [plan, hkind]
  | _ => rfl

namespace Machine

/-- The machine without the frames of its stack. -/
def alone (m : Machine) : Machine := { m with stack := m.stack.alone }

/-- `m` is `m₀` on top of the frames of `below`. -/
structure Over (below : Stack) (m₀ m : Machine) : Prop where
  stack : Stack.Over below m₀.stack m.stack
  store : m.store = m₀.store

/-- Work on two machines comes to the same. -/
structure SameOver {α : Type} (below : Stack) (o₀ o : Outcome Machine Event α) : Prop where
  value : o.value = o₀.value
  events : o.events = o₀.events
  state : Over below o₀.state o.state

/-- A turn on two machines comes to the same, and the call has ended when no frame above those below
is left. -/
inductive Turn.Over (below : Stack) : Turn → Turn → Prop where
  | goesOn {m₀ m : Machine} {es₀ es : List Event} (machines : Machine.Over below m₀ m)
      (inside : m₀.stack.frames ≠ [])
      (events : es.map Event.uncounted = es₀.map Event.uncounted) :
      Over below (.goesOn m₀ es₀) (.goesOn m es)
  | ended {m₀ m : Machine} {es₀ es : List Event} {value₀ value : Except Throwable Word}
      (machines : Machine.Over below m₀ m) (outside : m₀.stack.frames = [])
      (events : es.map Event.uncounted = es₀.map Event.uncounted)
      (same : value.mapError Throwable.uncounted = value₀.mapError Throwable.uncounted) :
      Over below (.ended value₀ m₀ es₀) (.ended value m es)

namespace Over

variable {below : Stack} {m₀ m : Machine}

theorem withStack (h : Over below m₀ m) {s₀ s : Stack} (hs : Stack.Over below s₀ s) :
    Over below { m₀ with stack := s₀ } { m with stack := s } :=
  ⟨hs, h.store⟩

theorem apply (h : Over below m₀ m) (hne : m₀.stack.frames ≠ []) (c : Change) :
    Over below (m₀.apply c) (m.apply c) := by
  rw [apply_eq, apply_eq]
  refine ⟨h.stack.onStack hne c, ?_⟩
  rw [h.store]

theorem newArray (h : Over below m₀ m) (hne : m₀.stack.frames ≠ []) (f : Frame) (dst : UInt8)
    (length : Int32) (classIndex : UInt16) :
    SameOver below (m₀.newArray f dst length classIndex)
      (m.newArray f dst length classIndex) := by
  rw [newArray_eq, newArray_eq, h.store]
  refine ⟨rfl, rfl, ?_⟩
  let made := m₀.store.newArray f dst length classIndex
  have hmade : Over below ⟨m₀.stack, made.state⟩ ⟨m.stack, made.state⟩ := ⟨h.stack, rfl⟩
  show Over below (m₀.receive dst made) (m.receive dst made)
  unfold receive
  split
  · exact hmade
  · exact hmade.apply hne _

theorem execute (h : Over below m₀ m) (hne : m₀.stack.frames ≠ []) (f : Frame)
    (i : Instruction) : SameOver below (m₀.execute f i) (m.execute f i) := by
  have hplan : ∀ i, f.plan m.store.heap m.stack.result m.stack.pending i =
      f.plan m₀.store.heap m₀.stack.result m₀.stack.pending i := by
    intro i
    rw [h.store, h.stack.result]
    exact f.plan_congr _ _ h.stack.pending i
  unfold Machine.execute
  split
  · next dst length classIndex =>
    cases f.registers.getInt length.toNat with
    | error e => exact ⟨rfl, rfl, h⟩
    | ok n =>
        have hmade := h.newArray hne f dst n classIndex
        exact ⟨congrArg (Except.map fun _ => Control.next _) hmade.value,
          congrArg (Event.notice (.newArray dst n classIndex) :: ·) hmade.events, hmade.state⟩
  · rw [hplan]
    cases f.plan m₀.store.heap m₀.stack.result m₀.stack.pending i with
    | error e => exact ⟨rfl, rfl, h⟩
    | ok p => exact ⟨rfl, rfl, h.apply hne p.change⟩

/-- The next instruction does the same to both machines. -/
theorem step (h : Over below m₀ m) (hne : m₀.stack.frames ≠ []) :
    SameOver below m₀.step m.step := by
  obtain ⟨f, rest, hf⟩ := List.exists_cons_of_ne_nil hne
  have hm : m.stack.frames = f :: (rest ++ below.frames) := by rw [h.stack.frames, hf]; rfl
  rw [step_eq hf, step_eq hm]
  cases decodeAt f.method.code f.pc with
  | error e => exact ⟨rfl, rfl, h⟩
  | ok i =>
      have hdone := h.execute hne f i
      exact ⟨hdone.value,
        congrArg (.instruction i.opcode :: .notice (.executing f.method.name f.pc i) :: ·)
          hdone.events, hdone.state⟩

/-- A throwable finds the same handler on both machines, or none above the frames below. -/
theorem handle (h : Over below m₀ m) {t₀ t : Throwable} (ht : t.uncounted = t₀.uncounted)
    {es₀ es : List Event} (hes : es.map Event.uncounted = es₀.map Event.uncounted) :
    Turn.Over below (m₀.handle 0 t₀ es₀) (m.handle below.depth t es) := by
  have hu := h.stack.unwind ht
  have hevents : (es ++ (m.stack.unwind t below.depth).events).map Event.uncounted =
      (es₀ ++ (m₀.stack.unwind t₀ 0).events).map Event.uncounted := by
    rw [List.map_append, List.map_append, hes, hu.events]
  unfold Machine.handle
  cases hcaught : (m₀.stack.unwind t₀ 0).caught with
  | true =>
      have hcaught' := hu.caught.trans hcaught
      simp only [hcaught, hcaught', if_true]
      exact .goesOn (h.withStack { hu.stack with pending := congrArg some ht }) (hu.inside hcaught)
        hevents
  | false =>
      have hcaught' := hu.caught.trans hcaught
      simp only [hcaught, hcaught']
      exact .ended (h.withStack hu.stack) (hu.outside hcaught) hevents (congrArg Except.error ht)

/-- Control goes to the same place on both machines. -/
theorem follow (h : Over below m₀ m) (hne : m₀.stack.frames ≠ []) (es : List Event)
    (control : Control) :
    Turn.Over below (m₀.follow 0 es control) (m.follow below.depth es control) := by
  have hmove := Stack.frames_modifyTop_ne_nil hne
  cases control with
  | next width => exact .goesOn (h.withStack (h.stack.modifyTop hne _)) (hmove _) rfl
  | jump target => exact .goesOn (h.withStack (h.stack.modifyTop hne _)) (hmove _) rfl
  | call callee =>
      unfold Machine.follow
      obtain ⟨hroom₀, hroom⟩ | ⟨t₀, t, hroom₀, hroom, ht⟩ := h.stack.room
      · rw [hroom₀, hroom]
        exact .goesOn (h.withStack (h.stack.push callee)) (List.cons_ne_nil _ _) rfl
      · rw [hroom₀, hroom]
        exact h.handle ht rfl
  | leave value =>
      have hpop := h.stack.pop hne
      have hhead : m.stack.frames.head? = m₀.stack.frames.head? := by
        obtain ⟨f, rest, hf⟩ := List.exists_cons_of_ne_nil hne
        rw [h.stack.frames, hf]
        rfl
      have hlast : m.stack.pop.depth ≤ below.depth ↔ m₀.stack.pop.depth ≤ 0 := by
        rw [hpop.depth]
        omega
      have hlength := m₀.stack.pop.depth_eq
      unfold Machine.follow
      simp only [hhead, hlast]
      by_cases hended : m₀.stack.pop.depth ≤ 0
      · rw [if_pos hended, if_pos hended]
        have hnil : m₀.stack.pop.frames = [] := List.eq_nil_of_length_eq_zero (by omega)
        exact .ended (h.withStack hpop) hnil rfl rfl
      · rw [if_neg hended, if_neg hended]
        -- the caller goes on after its invoke
        have hcaller : m₀.stack.pop.frames ≠ [] := fun hnil => by
          rw [hnil, List.length_nil] at hlength
          omega
        exact .goesOn (h.withStack { hpop.modifyTop hcaller _ with result := rfl })
          (Stack.frames_modifyTop_ne_nil hcaller _) rfl

/-- A turn does the same to both machines. -/
theorem advance (h : Over below m₀ m) (hne : m₀.stack.frames ≠ []) :
    Turn.Over below (m₀.advance 0) (m.advance below.depth) := by
  have hstep := h.step hne
  -- an instruction leaves a frame for control to go on in
  have hne' : m₀.step.state.stack.frames ≠ [] := by
    have hcalls := m₀.calls_step
    intro hnil
    rw [Stack.calls, hnil] at hcalls
    exact hne (List.map_eq_nil_iff.mp hcalls.symm)
  unfold Machine.advance
  simp only [hstep.value, hstep.events]
  cases m₀.step.value with
  | ok control => exact hstep.state.follow hne' _ control
  | error t => exact hstep.state.handle rfl rfl

end Over

/-! ### Whole calls -/

/-- Two runs come to the same. -/
inductive Run.Over (below : Stack) : Run (List Event) → Run (List Event) → Prop where
  | running {m₀ m : Machine} {es₀ es : List Event} : Over below (.running m₀ es₀) (.running m es)
  | ended {m₀ m : Machine} {es₀ es : List Event} {value₀ value : Except Throwable Word}
      (machines : Machine.Over below m₀ m) (outside : m₀.stack.frames = [])
      (events : es.map Event.uncounted = es₀.map Event.uncounted)
      (same : value.mapError Throwable.uncounted = value₀.mapError Throwable.uncounted) :
      Over below (.ended value₀ m₀ es₀) (.ended value m es)

theorem Over.runFor {below : Stack} {m₀ m : Machine} (h : Over below m₀ m)
    (hne : m₀.stack.frames ≠ []) {es₀ es : List Event}
    (hes : es.map Event.uncounted = es₀.map Event.uncounted) (turns : Nat) :
    Run.Over below (Machine.runFor report 0 turns m₀ es₀)
      (Machine.runFor report below.depth turns m es) := by
  induction turns generalizing m₀ m es₀ es with
  | zero => exact .running
  | succ turns ih =>
      have hturn := h.advance hne
      unfold Machine.runFor
      generalize m₀.advance 0 = turn₀ at hturn
      generalize m.advance below.depth = turn at hturn
      cases hturn with
      | goesOn machines inside events =>
          refine ih machines inside ?_
          rw [foldl_report, foldl_report, List.map_append, List.map_append, hes, events]
      | ended machines outside events same =>
          refine .ended machines outside ?_ same
          rw [foldl_report, foldl_report, List.map_append, List.map_append, hes, events]

theorem invokeFor_over (m : Machine) (home : Module) (index : Nat) (args : List Word)
    (turns : Nat) :
    Run.Over m.stack (m.alone.invokeFor report turns home index args [])
      (m.invokeFor report turns home index args []) := by
  have hover : Over m.stack m.alone m := ⟨m.stack.over_alone, rfl⟩
  unfold invokeFor
  cases firstFrame home index args with
  | error t => exact .ended hover rfl rfl rfl
  | ok frame =>
      obtain ⟨hroom₀, hroom⟩ | ⟨t₀, t, hroom₀, hroom, ht⟩ := hover.stack.room
      · rw [hroom₀, hroom]
        have hpushed := hover.withStack (hover.stack.push frame)
        exact hpushed.runFor (List.cons_ne_nil _ _) rfl turns
      · rw [hroom₀, hroom]
        exact .ended hover rfl rfl (congrArg Except.error ht)

/-- **What a call comes to** on the machine `m`, against what it comes to on `m` alone. -/
structure SameCall (m : Machine) (value₀ value : Except Throwable Word) (m₀ m' : Machine)
    (es₀ es : List Event) : Prop where
  /-- The value is the same, or the throwables are but for a number of frames. -/
  value : value.mapError Throwable.uncounted = value₀.mapError Throwable.uncounted
  /-- The heap, the classes and the caches are the same. -/
  store : m'.store = m₀.store
  result : m'.stack.result = m₀.stack.result
  /-- The pending throwables are the same but for a number of frames, so they are of one kind. -/
  pending : m'.stack.pending.map Throwable.uncounted = m₀.stack.pending.map Throwable.uncounted
  /-- The events are the same but for a number of frames in the log. -/
  events : es.map Event.uncounted = es₀.map Event.uncounted
  /-- The frames that were there before the call are there after it, and no other ones. -/
  frames : m'.stack.frames = m.stack.frames
  limit : m'.stack.limit = m.stack.limit

section

variable {m m' : Machine} {home : Module} {index : Nat} {args : List Word}
  {value : Except Throwable Word} {es : List Event}

/-- A call that ends on a machine ends on the machine alone. -/
theorem Calls.alone (h : m.Calls home index args value m' es) :
    ∃ value₀ m₀ es₀, m.alone.Calls home index args value₀ m₀ es₀ ∧
      SameCall m value₀ value m₀ m' es₀ es := by
  obtain ⟨turns, hrun⟩ := h
  have hover := m.invokeFor_over home index args turns
  rw [hrun] at hover
  generalize hrun₀ : m.alone.invokeFor report turns home index args [] = run₀ at hover
  cases hover with
  | ended machines outside events same =>
      have hframes : m'.stack.frames = m.stack.frames := by
        rw [machines.stack.frames, outside]
        rfl
      exact ⟨_, _, _, ⟨turns, hrun₀⟩, same, machines.store, machines.stack.result,
        machines.stack.pending, events, hframes, machines.stack.limit⟩

/-- A call that ends on a machine alone ends on the machine. -/
theorem CallEnds.of_alone (h : m.alone.CallEnds home index args) : m.CallEnds home index args := by
  obtain ⟨value₀, m₀, es₀, turns, hrun₀⟩ := h
  have hover := m.invokeFor_over home index args turns
  rw [hrun₀] at hover
  generalize hrun : m.invokeFor report turns home index args [] = run at hover
  cases hover with
  | ended => exact ⟨_, _, _, turns, hrun⟩

end

/-- **A call sees no frame but its own.**  It ends if and only if it ends on the machine without the
frames of its stack and with a limit that is lower by their number, and then it comes to the
same. -/
theorem call_sees_its_own_frames (m : Machine) (home : Module) (index : Nat) (args : List Word) :
    (m.CallEnds home index args ↔ m.alone.CallEnds home index args) ∧
      ∀ value m' es value₀ m₀ es₀, m.Calls home index args value m' es →
        m.alone.Calls home index args value₀ m₀ es₀ → SameCall m value₀ value m₀ m' es₀ es := by
  refine ⟨⟨?_, CallEnds.of_alone⟩, ?_⟩
  · rintro ⟨value, m', es, h⟩
    obtain ⟨value₀, m₀, es₀, h₀, -⟩ := h.alone
    exact ⟨value₀, m₀, es₀, h₀⟩
  · intro value m' es value₀ m₀ es₀ h h₀
    obtain ⟨value₁, m₁, es₁, h₁, hsame⟩ := h.alone
    obtain ⟨rfl, rfl, rfl⟩ := h₀.unique h₁
    exact hsame

end Machine

end TracedMachine
