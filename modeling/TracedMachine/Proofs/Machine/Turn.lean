import TracedMachine.Proofs.Machine.Parked

/-!
# Proofs — Machine — Turn

What a turn of a call does to the call's own frames, said once (`Machine.Goes`): the innermost frame
goes on at another address, a frame is entered, a frame is left for its caller, or a throwable is
caught by one of the frames and those above it are left.  With each comes what is pending after the
turn.  A turn that ends the call leaves what was pending (`Machine.pending_ended`).

`Stack.Calling` names the frames of a call, for what is proved of them as a list.  Their methods are
methods of the module that was called, since a frame is entered by way of its caller's module.
-/

namespace TracedMachine

namespace Instruction

/-- How far a branch goes. -/
def offset? : Instruction → Option Int
  | goto offset => some offset.toInt
  | ifZero _ offset => some offset.toInt
  | _ => none

/-- Control can go from the instruction at `pc` to `target`, in the same frame. -/
def LeadsTo (i : Instruction) (pc target : Nat) : Prop :=
  target = pc + i.width ∨ ∃ offset, i.offset? = some offset ∧ (target : Int) = pc + offset

end Instruction

namespace Frame

theorem branch_target {f : Frame} {offset : Int} {target : Nat}
    (h : f.branch offset = .ok (.jump target)) : (target : Int) = f.pc + offset := by
  unfold branch at h
  dsimp only at h
  split at h
  · next hinside =>
    cases h
    exact Int.toNat_of_nonneg hinside.1
  · cases h

/-- An instruction that was planned changes what is pending if it takes it, and only then. -/
theorem Planned.pending_onStack {f : Frame} {heap : Heap} {i : Instruction} {p : Plan}
    (h : f.Planned heap i p) (s : Stack) :
    (p.change.onStack s).pending = if i.takesPending then none else s.pending := by
  cases h with
  | moves _ pending => exact pending s
  | stores | jumps | branches | calls | leaves | answers => rfl

end Frame

/-- A change leaves the frames, and of the innermost one all but its registers. -/
theorem Change.frames_onStack (c : Change) {s : Stack} {f : Frame} {rest : List Frame}
    (h : s.frames = f :: rest) :
    ∃ registers, (c.onStack s).frames = { f with registers } :: rest := by
  cases c with
  | nothing | element => exact ⟨f.registers, h⟩
  | register index w | takePending index w =>
      refine ⟨f.registers.store index w, ?_⟩
      simp only [onStack, Stack.frames_modifyTop, h, List.modifyHead_cons]

/-! ### Throwables -/

namespace Stack

@[simp] theorem pending_unwindTop (t : Throwable) (count : Nat) (s : Stack) :
    (unwindTop t count s).stack.pending = s.pending := by
  induction count generalizing s with
  | zero => rfl
  | succ count ih =>
      cases hf : s.frames with
      | nil => simp only [unwindTop, hf]
      | cons f rest =>
          cases hhandler : f.method.handler? f.pc t.kind with
          | some handler =>
              rw [unwindTop_caught hf hhandler]
              exact s.pending_modifyTop _
          | none =>
              rw [unwindTop_left hf hhandler]
              exact ih s.pop

/-- A throwable that is caught goes to a handler of one of the frames that it looked at, and the
frames above that one are gone. -/
theorem frames_unwindTop {t : Throwable} {own below : List Frame} {s : Stack}
    (h : s.frames = own ++ below) (hcaught : (unwindTop t own.length s).caught = true) :
    ∃ left f rest handler, own = left ++ f :: rest ∧
      f.method.handler? f.pc t.kind = some handler ∧
      (unwindTop t own.length s).stack.frames = { f with pc := handler } :: (rest ++ below) := by
  induction own generalizing s with
  | nil => cases hcaught
  | cons f own ih =>
      cases hhandler : f.method.handler? f.pc t.kind with
      | some handler =>
          refine ⟨[], f, own, handler, rfl, hhandler, ?_⟩
          rw [List.length_cons, unwindTop_caught h hhandler, frames_modifyTop, h]
          rfl
      | none =>
          rw [List.length_cons, unwindTop_left h hhandler] at hcaught ⊢
          have hpop : s.pop.frames = own ++ below := congrArg List.tail h
          obtain ⟨left, g, rest, handler, rfl, hfound, hframes⟩ := ih hpop hcaught
          exact ⟨f :: left, g, rest, handler, rfl, hfound, hframes⟩

end Stack

namespace Machine

variable {m m' : Machine} {base : Nat} {t : Throwable} {es es' : List Event}

theorem handle_goesOn {below : Stack} {own : List Frame}
    (hframes : m.stack.frames = own ++ below.frames)
    (h : m.handle below.depth t es = .goesOn m' es') :
    ∃ left f rest handler, own = left ++ f :: rest ∧
      f.method.handler? f.pc t.kind = some handler ∧
      m'.stack.frames = { f with pc := handler } :: (rest ++ below.frames) ∧
      m'.stack.pending = some t := by
  have hcount : m.stack.depth - below.depth = own.length := by
    rw [m.stack.depth_eq, hframes, List.length_append, below.depth_eq, Nat.add_sub_cancel]
  unfold handle Stack.unwind at h
  rw [hcount] at h
  dsimp only at h
  split at h
  · next hcaught =>
    cases h
    obtain ⟨left, f, rest, handler, hown, hfound, hleft⟩ := Stack.frames_unwindTop hframes hcaught
    exact ⟨left, f, rest, handler, hown, hfound, hleft, rfl⟩
  · cases h

theorem handle_ended {value : Except Throwable Word}
    (h : m.handle base t es = .ended value m' es') : m'.stack.pending = m.stack.pending := by
  unfold handle Stack.unwind at h
  dsimp only at h
  split at h
  · cases h
  · cases h
    exact Stack.pending_unwindTop t _ m.stack

/-- The throwable of a turn: the instruction throws it, or finds no room for a frame. -/
def thrown? (m : Machine) : Option Throwable :=
  match m.step.value with
  | .error t => some t
  | .ok (.call _) =>
    match m.stack.room with
    | .error t => some t
    | .ok _ => none
  | .ok _ => none

theorem stack_thrown (h : m.step.value = .error t) : m.step.state.stack = m.stack := by
  obtain ⟨c, hstack, hnothing⟩ := m.stack_step
  rw [hstack, hnothing t h]
  rfl

/-! ### Turns -/

/-- **What a turn does to the frames of a call**, the innermost first, if the loop goes on. -/
inductive Goes (m m' : Machine) : List Frame → List Frame → Prop where
  /-- The innermost frame goes on at another address. -/
  | moves {f : Frame} {own : List Frame} {i : Instruction} {pc : Nat} {registers : Registers}
      (unthrown : m.thrown? = none) (decoded : decodeAt f.method.code f.pc = .ok i)
      (leads : i.LeadsTo f.pc pc)
      (pending : m'.stack.pending = if i.takesPending then none else m.stack.pending) :
      Goes m m' (f :: own) ({ f with pc, registers } :: own)
  /-- A frame is entered. -/
  | enters {f g : Frame} {own : List Frame} {i : Instruction} {index : Nat}
      (unthrown : m.thrown? = none) (decoded : decodeAt f.method.code f.pc = .ok i)
      (kept : i.takesPending = false) (entered : g.Enters f.home index)
      (room : m.stack.depth < m.stack.limit) (pending : m'.stack.pending = m.stack.pending) :
      Goes m m' (f :: own) (g :: f :: own)
  /-- The innermost frame is left, and its caller goes on after the invocation. -/
  | returns {f caller : Frame} {own : List Frame} {i : Instruction}
      (unthrown : m.thrown? = none) (decoded : decodeAt f.method.code f.pc = .ok i)
      (kept : i.takesPending = false) (pending : m'.stack.pending = m.stack.pending) :
      Goes m m' (f :: caller :: own)
        ({ caller with pc := caller.pc + Opcode.invoke.width } :: own)
  /-- A throwable is caught by one of the frames; those above it are left. -/
  | catches {t : Throwable} {f : Frame} {left own : List Frame} {handler : Nat}
      (thrown : m.thrown? = some t) (found : f.method.handler? f.pc t.kind = some handler)
      (pending : m'.stack.pending = some t) :
      Goes m m' (left ++ f :: own) ({ f with pc := handler } :: own)

section

variable {below : Stack} {own : List Frame}

theorem goes_thrown {x : Machine} (hframes : m.stack.frames = own ++ below.frames)
    (hthrown : m.thrown? = some t) (hstack : x.stack = m.stack)
    (h : x.handle below.depth t es = .goesOn m' es') :
    ∃ own', m'.stack.frames = own' ++ below.frames ∧ m.Goes m' own own' := by
  obtain ⟨left, f, rest, handler, rfl, hfound, hafter, hpending⟩ :=
    handle_goesOn (hstack ▸ hframes) h
  exact ⟨{ f with pc := handler } :: rest, hafter, .catches hthrown hfound hpending⟩

/-- The innermost frame of a machine that was changed by an instruction goes on at an address. -/
theorem goes_moved {x : Machine} {c : Change} {f : Frame} {i : Instruction} (pc : Frame → Nat)
    (hframes : m.stack.frames = f :: own ++ below.frames) (hthrown : m.thrown? = none)
    (hi : decodeAt f.method.code f.pc = .ok i)
    (hpc : ∀ registers, i.LeadsTo f.pc (pc { f with registers }))
    (hstack : x.stack = c.onStack m.stack)
    (hpending : (c.onStack m.stack).pending = if i.takesPending then none else m.stack.pending) :
    let x' : Machine := { x with stack := x.stack.modifyTop fun f => { f with pc := pc f } }
    ∃ own', x'.stack.frames = own' ++ below.frames ∧ m.Goes x' (f :: own) own' := by
  obtain ⟨registers, hchanged⟩ := c.frames_onStack hframes
  refine ⟨{ f with pc := pc { f with registers }, registers } :: own, ?_, ?_⟩
  · simp only [Stack.frames_modifyTop, hstack, hchanged]
    rfl
  · refine .moves hthrown hi (hpc registers) ?_
    rw [Stack.pending_modifyTop, hstack, hpending]

/-- **A turn of a call** does one of these. -/
theorem goes_advance (hframes : m.stack.frames = own ++ below.frames) (hown : own ≠ [])
    (h : m.advance below.depth = .goesOn m' es) :
    ∃ own', m'.stack.frames = own' ++ below.frames ∧ m.Goes m' own own' := by
  unfold advance at h
  dsimp only at h
  cases hvalue : m.step.value with
  | error t =>
      have hthrown : m.thrown? = some t := by simp only [thrown?, hvalue]
      rw [hvalue] at h
      exact goes_thrown hframes hthrown (stack_thrown hvalue) h
  | ok control =>
      rw [hvalue] at h
      obtain ⟨f, own, rfl⟩ := List.exists_cons_of_ne_nil hown
      obtain ⟨top, rest, i, htop, hi, hstep⟩ := step_ok hvalue
      obtain ⟨rfl, -⟩ := List.cons.inj (hframes.symm.trans htop)
      -- what the instruction has changed, and that it takes what is pending if it says so
      obtain ⟨c, hstack, hpending⟩ : ∃ c : Change, m.step.state.stack = c.onStack m.stack ∧
          (c.onStack m.stack).pending = if i.takesPending then none else m.stack.pending := by
        rcases hstep with ⟨dst, length, classIndex, ⟨rfl, w, hstack⟩, -⟩ | ⟨c, hplanned, hstate⟩
        · exact ⟨_, hstack, m.stack.pending_modifyTop _⟩
        · refine ⟨c, ?_, hplanned.pending_onStack m.stack⟩
          rw [hstate, apply_eq]
      cases control with
      | next width =>
          have hthrown : m.thrown? = none := by simp only [thrown?, hvalue]
          have hwidth : width = i.width := by
            rcases hstep with ⟨_, _, _, -, hnext⟩ | ⟨c, hplanned, -⟩
            · exact Control.next.inj hnext
            · cases hplanned <;> rfl
          cases h
          exact goes_moved (fun f => f.pc + width) hframes hthrown hi
            (fun _ => .inl (congrArg (f.pc + ·) hwidth)) hstack hpending
      | jump target =>
          have hthrown : m.thrown? = none := by simp only [thrown?, hvalue]
          have hleads : i.LeadsTo f.pc target := by
            rcases hstep with ⟨_, _, _, -, hnext⟩ | ⟨c, hplanned, -⟩
            · cases hnext
            · cases hplanned with
              | jumps inside => exact .inr ⟨_, rfl, Frame.branch_target inside⟩
              | branches inside => exact .inr ⟨_, rfl, Frame.branch_target inside⟩
          cases h
          exact goes_moved (fun _ => target) hframes hthrown hi (fun _ => hleads) hstack hpending
      | call callee =>
          rcases hstep with ⟨_, _, _, -, hnext⟩ | ⟨c, hplanned, hstate⟩
          · cases hnext
          · cases hplanned with
            | calls called =>
                have hkept : m.step.state.stack = m.stack := congrArg Machine.stack hstate
                have hentered := (Frame.callee_ok called).1
                unfold follow at h
                rw [hkept] at h
                unfold Stack.room at h
                by_cases hfull : m.stack.limit ≤ m.stack.depth
                · have hthrown : m.thrown? = some (.stackOverflow m.stack.depth) := by
                    simp only [thrown?, hvalue, Stack.room, if_pos hfull]
                  rw [if_pos hfull] at h
                  exact goes_thrown hframes hthrown hkept h
                · have hthrown : m.thrown? = none := by
                    simp only [thrown?, hvalue, Stack.room, if_neg hfull]
                  rw [if_neg hfull] at h
                  cases h
                  refine ⟨callee :: f :: own, congrArg (callee :: ·) hframes, ?_⟩
                  exact .enters hthrown hi rfl hentered (Nat.lt_of_not_le hfull) rfl
      | leave value =>
          have hthrown : m.thrown? = none := by simp only [thrown?, hvalue]
          obtain ⟨hstate, hkept⟩ : m.step.state = m ∧ i.takesPending = false := by
            rcases hstep with ⟨_, _, _, -, hnext⟩ | ⟨c, hplanned, hstate⟩
            · cases hnext
            · cases hplanned with
              | leaves | answers => exact ⟨hstate, rfl⟩
          rw [hstate] at h
          unfold follow at h
          dsimp only at h
          split at h
          · cases h
          · next hrunning =>
            have hpop : m.stack.pop.frames = own ++ below.frames := congrArg List.tail hframes
            cases own with
            | nil =>
                -- with the last frame of the call gone it would have ended
                refine absurd (Nat.le_of_eq ?_) hrunning
                rw [m.stack.pop.depth_eq, hpop, below.depth_eq, List.nil_append]
            | cons caller own =>
                cases h
                refine ⟨{ caller with pc := caller.pc + Opcode.invoke.width } :: own, ?_,
                  .returns hthrown hi hkept (Stack.pending_modifyTop _ _)⟩
                simp only [Stack.frames_modifyTop, hpop]
                rfl

/-- A turn that ends the call leaves what was pending, and does not take it. -/
theorem pending_ended {value : Except Throwable Word} (h : m.advance base = .ended value m' es) :
    m'.stack.pending = m.stack.pending ∧
      (m.thrown? = none → ∀ f rest i, m.stack.frames = f :: rest →
        decodeAt f.method.code f.pc = .ok i → i.takesPending = false) := by
  unfold advance at h
  dsimp only at h
  cases hvalue : m.step.value with
  | error t =>
      rw [hvalue] at h
      have hstack := congrArg Stack.pending (stack_thrown hvalue)
      refine ⟨(handle_ended h).trans hstack, fun hnone => ?_⟩
      simp only [thrown?, hvalue] at hnone
      cases hnone
  | ok control =>
      rw [hvalue] at h
      obtain ⟨f, rest, i, hf, hi, hstep⟩ := step_ok hvalue
      -- only leaving a method and a call without room end the loop, and neither takes
      obtain ⟨hstate, hkept⟩ : m.step.state = m ∧ i.takesPending = false := by
        rcases hstep with ⟨_, _, _, -, rfl⟩ | ⟨c, hplanned, hstate⟩
        · cases h
        · cases hplanned with
          | moves | stores | jumps | branches => cases h
          | calls | leaves | answers => exact ⟨hstate, rfl⟩
      rw [hstate] at h
      constructor
      · cases control with
        | next | jump => cases h
        | call callee =>
            unfold follow at h
            cases hroom : m.stack.room with
            | ok _ =>
                rw [hroom] at h
                cases h
            | error t =>
                rw [hroom] at h
                exact handle_ended h
        | leave value =>
            unfold follow at h
            dsimp only at h
            split at h
            · cases h
              rfl
            · cases h
      · intro _ f' rest' i' hf' hi'
        obtain ⟨rfl, -⟩ := List.cons.inj (hf.symm.trans hf')
        rw [hi] at hi'
        cases hi'
        exact hkept

end

end Machine

/-! ### The frames of a call -/

theorem Frame.Enters.listed {f : Frame} {home : Module} {index : Nat} (h : f.Enters home index) :
    f.method ∈ home.methods :=
  Array.mem_of_getElem? h.method_eq

/-- A turn leaves the methods of a call methods of its module. -/
theorem Machine.Goes.listed {home : Module} {own own' : List Frame} {m m' : Machine}
    (h : m.Goes m' own own') (hruns : ∀ f ∈ own, f.home = home)
    (hlisted : ∀ f ∈ own, f.method ∈ home.methods) : ∀ f ∈ own', f.method ∈ home.methods := by
  cases h with
  | moves =>
      obtain ⟨hf, hown⟩ := List.forall_mem_cons.mp hlisted
      exact List.forall_mem_cons.mpr ⟨hf, hown⟩
  | enters _ _ _ entered =>
      have hhome := hruns _ List.mem_cons_self
      exact List.forall_mem_cons.mpr ⟨hhome ▸ entered.listed, hlisted⟩
  | returns =>
      obtain ⟨-, hlisted⟩ := List.forall_mem_cons.mp hlisted
      obtain ⟨hcaller, hown⟩ := List.forall_mem_cons.mp hlisted
      exact List.forall_mem_cons.mpr ⟨hcaller, hown⟩
  | catches =>
      obtain ⟨-, hlisted⟩ := List.forall_mem_append.mp hlisted
      obtain ⟨hf, hown⟩ := List.forall_mem_cons.mp hlisted
      exact List.forall_mem_cons.mpr ⟨hf, hown⟩

namespace Stack

/-- A call of a module goes on above the frames of `below`, and `own` are its frames, the innermost
first.  Their methods are methods of the module. -/
structure Calling (home : Module) (below s : Stack) (own : List Frame) : Prop where
  inCall : InCall home below s
  frames : s.frames = own ++ below.frames
  listed : ∀ f ∈ own, f.method ∈ home.methods

namespace Calling

variable {home : Module} {below s : Stack} {own : List Frame}

theorem callFrames (h : Calling home below s own) : own ≠ [] ∧ CallFrames home own := by
  obtain ⟨f, rest, hframes, hcall⟩ := h.inCall.frames
  obtain rfl : own = f :: rest := List.append_cancel_right (h.frames.symm.trans hframes)
  exact ⟨List.cons_ne_nil f rest, hcall⟩

theorem depth_eq (h : Calling home below s own) : s.depth = own.length + below.depth := by
  rw [s.depth_eq, h.frames, List.length_append, below.depth_eq]

/-- A call that begins has one frame, at the start of its method. -/
theorem begun {frame : Frame} {index : Nat} (h : frame.Enters home index)
    (hroom : below.depth < below.limit) : Calling home below (below.push frame) [frame] where
  inCall := ⟨rfl, hroom, frame, [], rfl, .single h.runs⟩
  frames := rfl
  listed := List.forall_mem_singleton.mpr h.listed

/-- **A turn of a call that goes on**, on the frames of the call. -/
theorem advance {m m' : Machine} {es : List Event} (h : Calling home below m.stack own)
    (hturn : m.advance below.depth = .goesOn m' es) :
    ∃ own', Calling home below m'.stack own' ∧ m.Goes m' own own' := by
  obtain ⟨hown, hcall⟩ := h.callFrames
  obtain ⟨own', hframes, hgoes⟩ := Machine.goes_advance h.frames hown hturn
  have hinCall := Machine.inCall_advance h.inCall
  rw [hturn] at hinCall
  have hlisted := hgoes.listed (fun f hf => (hcall.runs f hf).home_eq) h.listed
  exact ⟨own', ⟨hinCall, hframes, hlisted⟩, hgoes⟩

end Calling

end Stack

end TracedMachine
