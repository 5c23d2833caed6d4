import TracedMachine.Proofs.Machine.Call
import TracedMachine.Proofs.Machine.Step
import Mathlib.Data.List.Chain

/-!
# Proofs — Machine — Parked

Where the frames of a call stand while it goes on.  The innermost frame may stand anywhere, since
code is not verified and a handler is wherever a catch table says.  Every other frame is *parked*:
it stands on the invocation that has entered the frame above it (`Frame.ParkedFor`).  That is why
leaving a method can move its caller on by the width of an invocation without looking at the
caller's code.

**Parked callers** (`Machine.callers_are_parked`).  Between two turns of a call that has not ended,
the frames above those that were there before it are at least one and within the limit, they are of
the module that was called and have their methods' registers, and all but the innermost are parked.

`Stack.InCall` is what a turn keeps.  A frame is entered from the frame that stands on its
invocation (`InCall.call`).  Leaving a frame and unwinding one uncover its caller, which is then the
innermost and need not be parked any more (`InCall.left`).
-/

namespace TracedMachine

/-! ### Frames of a call -/

namespace Frame

/-- The frame is of a module, and has as many registers as its method asks for. -/
structure Runs (f : Frame) (home : Module) : Prop where
  home_eq : f.home = home
  size_eq : f.registers.size = f.method.registers

/-- The frame stands on an invocation of `callee`, with as many arguments as that takes. -/
def ParkedFor (f : Frame) (callee : Method) : Prop :=
  ∃ count index first, decodeAt f.method.code f.pc = .ok (.invoke count index first) ∧
    f.home.method? index.toNat = some callee ∧ count.toNat = callee.ins

theorem Enters.runs {f : Frame} {home : Module} {index : Nat} (h : f.Enters home index) :
    f.Runs home :=
  ⟨h.home_eq, h.size_eq⟩

theorem Runs.move {f : Frame} {home : Module} (h : f.Runs home) (pc : Nat) :
    { f with pc }.Runs home :=
  ⟨h.home_eq, h.size_eq⟩

theorem Runs.store {f : Frame} {home : Module} (h : f.Runs home) (index : Nat) (w : Word) :
    { f with registers := f.registers.store index w }.Runs home :=
  ⟨h.home_eq, (Registers.size_store _ _ _).trans h.size_eq⟩

end Frame

/-- The frames of a call, the innermost first: they are of one module, and each is parked for the
method of the one before it. -/
structure CallFrames (home : Module) (own : List Frame) : Prop where
  runs : ∀ f ∈ own, f.Runs home
  parked : own.IsChain fun callee caller => caller.ParkedFor callee.method

namespace CallFrames

variable {home : Module} {f g : Frame} {own : List Frame}

theorem single (h : f.Runs home) : CallFrames home [f] where
  runs := List.forall_mem_singleton.mpr h
  parked := .singleton f

/-- A frame is entered from the innermost one. -/
theorem enter (h : CallFrames home (f :: own)) (hg : g.Runs home) (hparked : f.ParkedFor g.method) :
    CallFrames home (g :: f :: own) where
  runs := List.forall_mem_cons.mpr ⟨hg, h.runs⟩
  parked := .cons_cons hparked h.parked

/-- Nothing is asked of the address of the innermost frame. -/
theorem change (h : CallFrames home (f :: own)) (hg : g.Runs home) (hmethod : g.method = f.method) :
    CallFrames home (g :: own) where
  runs := List.forall_mem_cons.mpr ⟨hg, (List.forall_mem_cons.mp h.runs).2⟩
  parked := by
    cases own with
    | nil => exact .singleton g
    | cons caller own =>
        obtain ⟨hcaller, hrest⟩ := List.isChain_cons_cons.mp h.parked
        exact .cons_cons (hmethod ▸ hcaller) hrest

theorem leave (h : CallFrames home (f :: own)) : CallFrames home own where
  runs := (List.forall_mem_cons.mp h.runs).2
  parked := h.parked.tail

end CallFrames

/-! ### What a turn keeps -/

namespace Stack

/-- A call of a module goes on above the frames of `below`. -/
structure InCall (home : Module) (below s : Stack) : Prop where
  limit : s.limit = below.limit
  depth_le : s.depth ≤ s.limit
  frames : ∃ f own, s.frames = f :: (own ++ below.frames) ∧ CallFrames home (f :: own)

namespace InCall

variable {home : Module} {below s : Stack}

theorem depth_eq {f : Frame} {own : List Frame} (h : s.frames = f :: (own ++ below.frames)) :
    s.depth = own.length + 1 + below.depth := by
  rw [s.depth_eq, h, List.length_cons, List.length_append, below.depth_eq]
  omega

theorem base_lt (h : InCall home below s) : below.depth < s.depth := by
  obtain ⟨f, own, hframes, -⟩ := h.frames
  rw [depth_eq hframes]
  omega

/-- A change of the innermost frame that leaves its method. -/
theorem modifyTop (h : InCall home below s) {change : Frame → Frame}
    (hruns : ∀ f, f.Runs home → (change f).Runs home)
    (hmethod : ∀ f, (change f).method = f.method) : InCall home below (s.modifyTop change) := by
  obtain ⟨f, own, hframes, hcall⟩ := h.frames
  have hf : f.Runs home := hcall.runs f List.mem_cons_self
  have hchanged : (s.modifyTop change).frames = change f :: (own ++ below.frames) := by
    rw [frames_modifyTop, hframes]
    rfl
  refine ⟨(s.limit_modifyTop change).trans h.limit, ?_, change f, own, hchanged,
    hcall.change (hruns f hf) (hmethod f)⟩
  rw [depth_eq hchanged, limit_modifyTop, ← depth_eq hframes]
  exact h.depth_le

/-- The innermost frame may go on anywhere. -/
theorem move (h : InCall home below s) (pc : Frame → Nat) :
    InCall home below (s.modifyTop fun f => { f with pc := pc f }) :=
  h.modifyTop (fun f hf => hf.move (pc f)) fun _ => rfl

theorem onStack (h : InCall home below s) (c : Change) : InCall home below (c.onStack s) := by
  cases c with
  | nothing | element => exact h
  | register index w => exact h.modifyTop (fun _ hf => hf.store index w) fun _ => rfl
  | takePending index w =>
      obtain ⟨hlimit, hdepth, hframes⟩ :=
        h.modifyTop (fun _ hf => hf.store index w) fun _ => rfl
      exact ⟨hlimit, hdepth, hframes⟩

/-- A frame is entered from the frame that stands on its invocation, if there is room. -/
theorem call (h : InCall home below s) {f g : Frame} {rest : List Frame} (hf : s.frames = f :: rest)
    (hg : g.Runs home) (hparked : f.ParkedFor g.method) (hroom : s.depth < s.limit) :
    InCall home below (s.push g) := by
  obtain ⟨top, own, hframes, hcall⟩ := h.frames
  obtain ⟨rfl, rfl⟩ := List.cons.inj (hf.symm.trans hframes)
  refine ⟨h.limit, hroom, g, f :: own, ?_, hcall.enter hg hparked⟩
  show g :: s.frames = _
  rw [hframes]
  rfl

/-- When the innermost frame is gone, its caller is the innermost one, or none is left. -/
theorem left (h : InCall home below s) :
    InCall home below s.pop ∨ s.pop.frames = below.frames := by
  obtain ⟨f, own, hframes, hcall⟩ := h.frames
  have hpop : s.pop.frames = own ++ below.frames := congrArg List.tail hframes
  cases own with
  | nil => exact .inr hpop
  | cons caller own =>
      have hdepth : s.pop.depth ≤ s.limit := Nat.le_trans (Nat.sub_le _ _) h.depth_le
      exact .inl ⟨h.limit, hdepth, caller, own, hpop, hcall.leave⟩

/-- A throwable that is caught uncovers the frame with the handler. -/
theorem unwindTop {t : Throwable} {count : Nat} (h : InCall home below s)
    (hcount : s.depth - below.depth = count) (hcaught : (Stack.unwindTop t count s).caught = true) :
    InCall home below (Stack.unwindTop t count s).stack := by
  induction count generalizing s with
  | zero => cases hcaught
  | succ count ih =>
      obtain ⟨f, own, hframes, -⟩ := h.frames
      cases hhandler : f.method.handler? f.pc t.kind with
      | some handler =>
          rw [unwindTop_caught hframes hhandler]
          exact h.move fun _ => handler
      | none =>
          rw [unwindTop_left hframes hhandler] at hcaught ⊢
          have hpop : s.pop.depth - below.depth = count := by
            show s.depth - 1 - below.depth = count
            omega
          rcases h.left with hleft | hgone
          · exact ih hleft hpop hcaught
          · -- no frame of the call is left, so no handler was found
            have hzero : count = 0 := by
              rw [← hpop, s.pop.depth_eq, hgone, below.depth_eq, Nat.sub_self]
            subst hzero
            cases hcaught

end InCall

end Stack

/-! ### Turns -/

namespace Machine

variable {home : Module} {below : Stack} {m : Machine}

/-- If the loop goes on, so does the call. -/
def Turn.InCall (home : Module) (below : Stack) : Turn → Prop
  | .goesOn m _ => Stack.InCall home below m.stack
  | .ended .. => True

theorem inCall_handle (h : Stack.InCall home below m.stack) (t : Throwable) (es : List Event) :
    (m.handle below.depth t es).InCall home below := by
  unfold handle Stack.unwind
  dsimp only
  split
  · next hcaught =>
    obtain ⟨hlimit, hdepth, hframes⟩ := h.unwindTop rfl hcaught
    exact ⟨hlimit, hdepth, hframes⟩
  · trivial

/-- Where control goes after an instruction, given that a frame it enters is entered from the frame
that stands on its invocation. -/
theorem inCall_follow (h : Stack.InCall home below m.stack) (es : List Event) {control : Control}
    (hcall : ∀ g, control = .call g →
      ∃ f rest, m.stack.frames = f :: rest ∧ g.Runs home ∧ f.ParkedFor g.method) :
    (m.follow below.depth es control).InCall home below := by
  cases control with
  | next width => exact h.move fun f => f.pc + width
  | jump target => exact h.move fun _ => target
  | call g =>
      obtain ⟨f, rest, hf, hg, hparked⟩ := hcall g rfl
      unfold follow Stack.room
      by_cases hfull : m.stack.limit ≤ m.stack.depth
      · rw [if_pos hfull]
        exact inCall_handle h _ es
      · rw [if_neg hfull]
        exact h.call hf hg hparked (Nat.lt_of_not_le hfull)
  | leave value =>
      unfold follow
      dsimp only
      split
      · trivial
      · next hrunning =>
        rcases h.left with hleft | hgone
        · obtain ⟨hlimit, hdepth, hframes⟩ := hleft.move fun f => f.pc + Opcode.invoke.width
          exact ⟨hlimit, hdepth, hframes⟩
        · -- with the last frame of the call gone it would have ended
          refine absurd (Nat.le_of_eq ?_) hrunning
          rw [m.stack.pop.depth_eq, hgone, below.depth_eq]

/-- A frame that a step enters is entered from the frame that stands on its invocation. -/
theorem step_call (h : Stack.InCall home below m.stack) {g : Frame}
    (hg : m.step.value = .ok (.call g)) :
    ∃ f rest, m.step.state.stack.frames = f :: rest ∧ g.Runs home ∧ f.ParkedFor g.method := by
  obtain ⟨f, rest, i, hf, hi, ⟨dst, length, classIndex, -, hnext⟩ | ⟨change, hplanned, hstate⟩⟩ :=
    step_ok hg
  · cases hnext
  · cases hplanned with
    | @calls count index first g called =>
        obtain ⟨henters, hcount⟩ := Frame.callee_ok called
        have hhome : f.home = home := by
          obtain ⟨top, own, hframes, hcall⟩ := h.frames
          obtain ⟨rfl, -⟩ := List.cons.inj (hf.symm.trans hframes)
          exact (hcall.runs f List.mem_cons_self).home_eq
        have hparked : f.ParkedFor g.method := ⟨count, index, first, hi, henters.method_eq, hcount⟩
        refine ⟨f, rest, ?_, hhome ▸ henters.runs, hparked⟩
        rw [hstate]
        exact hf

/-- **A turn of a call** leaves its callers parked. -/
theorem inCall_advance (h : Stack.InCall home below m.stack) :
    (m.advance below.depth).InCall home below := by
  have hstep : Stack.InCall home below m.step.state.stack := by
    obtain ⟨c, hstack, -⟩ := m.stack_step
    rw [hstack]
    exact h.onStack c
  unfold advance
  dsimp only
  cases hvalue : m.step.value with
  | error t => exact inCall_handle hstep t _
  | ok control =>
      refine inCall_follow hstep _ fun g hg => ?_
      exact step_call h (hvalue.trans (congrArg Except.ok hg))

/-! ### Calls -/

section

variable {σ : Type} {observe : σ → Event → σ} {m' : Machine} {s s' : σ}

theorem inCall_runFor (h : Stack.InCall home below m.stack) {turns : Nat}
    (hrun : runFor observe below.depth turns m s = .running m' s') :
    Stack.InCall home below m'.stack := by
  induction turns generalizing m s with
  | zero =>
      cases hrun
      exact h
  | succ turns ih =>
      have hturn := inCall_advance h
      unfold runFor at hrun
      cases hadvance : m.advance below.depth with
      | goesOn next es =>
          rw [hadvance] at hturn hrun
          exact ih hturn hrun
      | ended value next es =>
          rw [hadvance] at hrun
          cases hrun

/-- **How a call begins.**  It enters a frame of its method and runs, or it has ended at once with a
throwable. -/
theorem invokeFor_cases (observe : σ → Event → σ) (m : Machine) (home : Module) (index : Nat)
    (args : List Word) :
    (∃ frame : Frame, frame.Enters home index ∧ m.stack.depth < m.stack.limit ∧ ∀ turns s,
      m.invokeFor observe turns home index args s =
        runFor observe m.stack.depth turns { m with stack := m.stack.push frame }
          (observe s (.method frame.method.id .enter))) ∨
      ∃ t, ∀ turns s, m.invokeFor observe turns home index args s = .ended (.error t) m s := by
  unfold invokeFor Stack.room
  cases hframe : firstFrame home index args with
  | error t => exact .inr ⟨t, fun _ _ => rfl⟩
  | ok frame =>
      by_cases hfull : m.stack.limit ≤ m.stack.depth
      · rw [if_pos hfull]
        exact .inr ⟨_, fun _ _ => rfl⟩
      · rw [if_neg hfull]
        have hentered := (Frame.firstFrame_ok hframe).1
        exact .inl ⟨frame, hentered, Nat.lt_of_not_le hfull, fun _ _ => rfl⟩

theorem inCall_invokeFor {turns index : Nat} {args : List Word}
    (hrun : m.invokeFor observe turns home index args s = .running m' s') :
    Stack.InCall home m.stack m'.stack := by
  obtain ⟨frame, hentered, hroom, hbegun⟩ | ⟨t, hrefused⟩ :=
    invokeFor_cases observe m home index args
  · rw [hbegun] at hrun
    have hpushed : Stack.InCall home m.stack (m.stack.push frame) :=
      ⟨rfl, hroom, frame, [], rfl, .single hentered.runs⟩
    exact inCall_runFor hpushed hrun
  · rw [hrefused] at hrun
    cases hrun

end

/-- Leaving a method moves its caller on by the width of an invocation. -/
theorem advance_leave {base : Nat} {value : Word} {callee caller : Frame} {rest : List Frame}
    (hvalue : m.step.value = .ok (.leave value))
    (hframes : m.stack.frames = callee :: caller :: rest) (hbase : base ≤ rest.length) :
    ∃ next es, m.advance base = .goesOn next es ∧
      next.stack.frames = { caller with pc := caller.pc + Opcode.invoke.width } :: rest := by
  have hpop : m.step.state.stack.pop.frames = caller :: rest := by
    obtain ⟨c, hstack, -⟩ := m.stack_step
    show m.step.state.stack.frames.tail = caller :: rest
    rw [hstack, c.tail_onStack, hframes]
    rfl
  have hrunning : ¬ m.step.state.stack.pop.depth ≤ base := by
    rw [m.step.state.stack.pop.depth_eq, hpop, List.length_cons]
    omega
  unfold advance
  simp only [hvalue, follow, if_neg hrunning]
  refine ⟨_, _, rfl, ?_⟩
  show (m.step.state.stack.pop.modifyTop _).frames = _
  rw [Stack.frames_modifyTop, hpop]
  rfl

/-- **A call that has not ended.**  `own` are its frames, the innermost first. -/
structure Unfinished (home : Module) (m m' : Machine) (own : List Frame) : Prop where
  base_lt : m.stack.depth < m'.stack.depth
  depth_le : m'.stack.depth ≤ m'.stack.limit
  limit : m'.stack.limit = m.stack.limit
  /-- The frames that were there before the call are as they were. -/
  frames : m'.stack.frames = own ++ m.stack.frames
  /-- All frames of the call are of the module, and have the registers of their methods. -/
  runs : ∀ f ∈ own, f.Runs home
  /-- So have all frames, if those have that were there before the call. -/
  sized : (∀ f ∈ m.stack.frames, f.registers.size = f.method.registers) →
    ∀ f ∈ m'.stack.frames, f.registers.size = f.method.registers
  /-- All but the innermost stand on the invocation of the method of the frame above. -/
  parked : own.IsChain fun callee caller => caller.ParkedFor callee.method
  /-- When the innermost frame is left, its caller goes on right after that invocation. -/
  resumes : ∀ callee caller rest value, own = callee :: caller :: rest →
    m'.step.value = .ok (.leave value) → ∃ i next es,
      decodeAt caller.method.code caller.pc = .ok i ∧
        m'.advance m.stack.depth = .goesOn next es ∧
        next.stack.frames = { caller with pc := caller.pc + i.width } :: (rest ++ m.stack.frames)

/-- **Callers are parked.**  Whatever module is called, and with whatever arguments: in every state
between two turns of a call that has not ended, the frames are as `Unfinished` says. -/
theorem callers_are_parked {σ : Type} {observe : σ → Event → σ} {turns index : Nat} {home : Module}
    {args : List Word} {m m' : Machine} {s s' : σ}
    (hrun : m.invokeFor observe turns home index args s = .running m' s') :
    ∃ own, Unfinished home m m' own := by
  have h := inCall_invokeFor hrun
  obtain ⟨f, own, hframes, hcall⟩ := h.frames
  refine ⟨f :: own,
    { base_lt := h.base_lt
      depth_le := h.depth_le
      limit := h.limit
      frames := hframes
      runs := hcall.runs
      sized := fun hbelow g hg => ?_
      parked := hcall.parked
      resumes := ?_ }⟩
  · rw [hframes] at hg
    rcases List.mem_append.mp (List.cons_append ▸ hg) with hg | hg
    · exact (hcall.runs g hg).size_eq
    · exact hbelow g hg
  · rintro callee caller rest value hown hleave
    obtain ⟨rfl, rfl⟩ := List.cons.inj hown
    obtain ⟨⟨count, index, first, hi, -, -⟩, -⟩ := List.isChain_cons_cons.mp hcall.parked
    have hbase : m.stack.depth ≤ (rest ++ m.stack.frames).length := by
      rw [List.length_append, m.stack.depth_eq]
      exact Nat.le_add_left _ _
    obtain ⟨next, es, hadvance, hnext⟩ := advance_leave hleave hframes hbase
    exact ⟨_, next, es, hi, hadvance, hnext⟩

end Machine

namespace Sample

/-- A machine that stands at the start of `run`. -/
def begun : Machine :=
  { stack := { frames := (Demo.home.method? 0).toList.map (Frame.enter Demo.home), limit := 8 }
    store := vm.store }

end Sample

/-- After one turn `probe` is parked on its call of `explode`, over a frame that was there. -/
theorem Machine.callers_are_parked_probe :
    ∃ m' own es, Sample.begun.invokeFor report 1 Demo.home 2 [] [] = .running m' es ∧
      own.length = 2 ∧ Unfinished Demo.home Sample.begun m' own := by
  obtain ⟨m', es, hrun, hdepth⟩ : ∃ m' es,
      Sample.begun.invokeFor report 1 Demo.home 2 [] [] = .running m' es ∧ m'.stack.depth = 3 :=
    ⟨_, _, rfl, rfl⟩
  obtain ⟨own, hown⟩ := callers_are_parked hrun
  refine ⟨m', own, es, hrun, ?_, hown⟩
  have hlength := congrArg List.length hown.frames
  rw [← m'.stack.depth_eq, hdepth, List.length_append] at hlength
  exact (Nat.succ.inj hlength).symm

end TracedMachine
