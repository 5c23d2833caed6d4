import TracedMachine.Proofs.Machine.Call
import TracedMachine.Proofs.Machine.Passes

/-!
# Proofs — Machine — Loaded

Code that runs is loaded code.  A frame is *within* a table of methods if its method is in the table
and so are the methods that its code can call (`Frame.Within`).  A turn of the loop that begins with
such frames ends with such frames, and a trace shows of it methods of the table and synthetic ones
(`Machine.within_advance`); so does a whole call of a module that is in the table
(`Machine.within_invokeFor`).
-/

namespace TracedMachine

/-- The methods of the module are in a table. -/
def Module.Within (m : Module) (t : MethodTable) : Prop :=
  ∀ method ∈ m.methods, method ∈ t.methods

/-- The frame's method, and the methods that its code can call, are in a table. -/
structure Frame.Within (f : Frame) (t : MethodTable) : Prop where
  method : f.method ∈ t.methods
  home : f.home.Within t

/-- All frames are within a table. -/
def Stack.Within (s : Stack) (t : MethodTable) : Prop := ∀ f ∈ s.frames, f.Within t

namespace MethodTable

/-- The table has a method with this id, or the id is a synthetic one. -/
def Names (t : MethodTable) (id : MethodId) : Prop :=
  id = .collection ∨ id = .classPreparation ∨ ∃ m ∈ t.methods, m.id = id

/-- A trace shows of these events methods of the table and synthetic ones. -/
def Covers (t : MethodTable) (es : List Event) : Prop := ∀ c ∈ tracedCalls es, t.Names c.method

end MethodTable

variable {t : MethodTable}

/-! ### Larger tables -/

section

variable {t' : MethodTable} (hmore : ∀ m ∈ t.methods, m ∈ t'.methods)
include hmore

theorem Module.Within.mono {m : Module} (h : m.Within t) : m.Within t' :=
  fun method hm => hmore method (h method hm)

theorem Stack.Within.mono {s : Stack} (h : s.Within t) : s.Within t' :=
  fun f hf => ⟨hmore _ (h f hf).method, (h f hf).home.mono hmore⟩

theorem MethodTable.Names.mono {id : MethodId} (h : t.Names id) : t'.Names id := by
  rcases h with h | h | ⟨m, hm, hid⟩
  · exact .inl h
  · exact .inr (.inl h)
  · exact .inr (.inr ⟨m, hmore m hm, hid⟩)

end

/-! ### Events -/

namespace MethodTable.Covers

variable {es more : List Event}

theorem append (h : t.Covers es) (hmore : t.Covers more) : t.Covers (es ++ more) := by
  intro c hc
  rw [tracedCalls_append, List.mem_append] at hc
  exact hc.elim (h c) (hmore c)

theorem nil : t.Covers [] := fun _ hc => nomatch hc

theorem passes (h : ShowsPasses es) : t.Covers es := by
  intro c hc
  rcases h.synthetic hc with hsynthetic | hsynthetic
  · exact .inl hsynthetic
  · exact .inr (.inl hsynthetic)

theorem method {m : Method} (h : m ∈ t.methods) (action : Action) :
    t.Covers [.method m.id action] := by
  intro c hc
  obtain rfl : c = ⟨m.id, action⟩ := List.mem_singleton.mp hc
  exact .inr (.inr ⟨m, h, rfl⟩)

end MethodTable.Covers

open MethodTable (Covers)

/-! ### Stacks -/

namespace Stack.Within

variable {s : Stack}

theorem push (h : s.Within t) {f : Frame} (hf : f.Within t) : (s.push f).Within t :=
  List.forall_mem_cons.mpr ⟨hf, h⟩

theorem pop (h : s.Within t) : s.pop.Within t := fun f hf => h f (List.mem_of_mem_tail hf)

/-- A change of the innermost frame that leaves its method and its module. -/
theorem modifyTop (h : s.Within t) {change : Frame → Frame}
    (hmethod : ∀ f, (change f).method = f.method) (hhome : ∀ f, (change f).home = f.home) :
    (s.modifyTop change).Within t := by
  unfold Stack.Within at h ⊢
  rw [frames_modifyTop]
  cases hframes : s.frames with
  | nil => exact fun f hf => nomatch hf
  | cons f rest =>
      rw [hframes] at h
      obtain ⟨⟨hm, hh⟩, hrest⟩ := List.forall_mem_cons.mp h
      refine List.forall_mem_cons.mpr ⟨⟨?_, ?_⟩, hrest⟩
      · rwa [hmethod]
      · rwa [hhome]

/-- Where the innermost frame goes on does not matter. -/
theorem move (h : s.Within t) (pc : Frame → Nat) :
    (s.modifyTop fun f => { f with pc := pc f }).Within t :=
  h.modifyTop (fun _ => rfl) fun _ => rfl

theorem onStack (h : s.Within t) (c : Change) : (c.onStack s).Within t := by
  cases c with
  | nothing | element => exact h
  | register index w => exact h.modifyTop (fun _ => rfl) fun _ => rfl
  | takePending index w =>
      have hwritten : (s.modifyTop fun f =>
          { f with registers := f.registers.store index w }).Within t :=
        h.modifyTop (fun _ => rfl) fun _ => rfl
      exact hwritten

/-- A throwable leaves frames of the table, and shows their methods. -/
theorem unwindTop (h : s.Within t) (e : Throwable) (count : Nat) :
    (Stack.unwindTop e count s).stack.Within t ∧ t.Covers (Stack.unwindTop e count s).events := by
  induction count generalizing s with
  | zero => exact ⟨h, .nil⟩
  | succ count ih =>
      cases hf : s.frames with
      | nil =>
          simp only [Stack.unwindTop, hf]
          exact ⟨h, .nil⟩
      | cons f rest =>
          cases hhandler : f.method.handler? f.pc e.kind with
          | some handler =>
              rw [unwindTop_caught hf hhandler]
              exact ⟨h.move fun _ => handler, .nil⟩
          | none =>
              have htop := h f (hf ▸ List.mem_cons_self)
              rw [unwindTop_left hf hhandler]
              exact ⟨(ih h.pop).1, (Covers.method htop.method .unwind).append (ih h.pop).2⟩

end Stack.Within

/-! ### One turn -/

/-- A frame that enters a method of a module is within every table that the module is in. -/
theorem Frame.Enters.within {f : Frame} {home : Module} {index : Nat} (h : f.Enters home index)
    (hhome : home.Within t) : f.Within t := by
  obtain ⟨rfl, hmethod, -⟩ := h
  exact ⟨hhome f.method (Array.mem_of_getElem? hmethod), hhome⟩

namespace Machine

variable {m : Machine}

/-- A step enters frames of the table only. -/
theorem within_step_call (h : m.stack.Within t) {g : Frame} (hg : m.step.value = .ok (.call g)) :
    g.Within t := by
  obtain ⟨f, rest, i, hf, -, ⟨dst, length, classIndex, -, hnext⟩ | ⟨change, hplanned, -⟩⟩ :=
    step_ok hg
  · cases hnext
  · have hframe : f.Within t := h f (hf ▸ List.mem_cons_self)
    cases hplanned with
    | calls called => exact (Frame.callee_ok called).1.within hframe.home

/-- The frames after a turn are within the table, and it has the methods that a trace shows. -/
def Turn.Within (t : MethodTable) : Turn → Prop
  | .goesOn m es | .ended _ m es => m.stack.Within t ∧ t.Covers es

theorem within_handle (h : m.stack.Within t) (base : Nat) (e : Throwable) {es : List Event}
    (hes : t.Covers es) : (m.handle base e es).Within t := by
  obtain ⟨hstack, hevents⟩ := h.unwindTop e (m.stack.depth - base)
  unfold handle
  dsimp only
  split
  · exact ⟨hstack, hes.append hevents⟩
  · exact ⟨hstack, hes.append hevents⟩

theorem within_follow (h : m.stack.Within t) (base : Nat) {es : List Event} (hes : t.Covers es)
    {control : Control} (hcall : ∀ g, control = .call g → g.Within t) :
    (m.follow base es control).Within t := by
  cases control with
  | next width => exact ⟨h.move fun f => f.pc + width, hes⟩
  | jump target => exact ⟨h.move fun _ => target, hes⟩
  | call callee =>
      have hcallee := hcall callee rfl
      unfold follow
      dsimp only
      split
      · exact ⟨h.push hcallee, hes.append (.method hcallee.method .enter)⟩
      · exact within_handle h base _ hes
  | leave value =>
      have hleft : t.Covers
          (m.stack.frames.head?.map fun f => Event.method f.method.id .exit).toList := by
        cases hf : m.stack.frames with
        | nil => exact .nil
        | cons f rest => exact .method (h f (hf ▸ List.mem_cons_self)).method .exit
      unfold follow
      dsimp only
      split
      · exact ⟨h.pop, hes.append hleft⟩
      · exact ⟨h.pop.move fun f => f.pc + Opcode.invoke.width, hes.append hleft⟩

/-- **A turn of loaded code** leaves loaded code, and shows its methods. -/
theorem within_advance (h : m.stack.Within t) (base : Nat) : (m.advance base).Within t := by
  have hstep : m.step.state.stack.Within t := by
    obtain ⟨c, hstack, -⟩ := m.stack_step
    rw [hstack]
    exact h.onStack c
  have hevents : t.Covers m.step.events := .passes m.showsPasses_step
  unfold advance
  dsimp only
  cases hvalue : m.step.value with
  | ok control =>
      refine within_follow hstep base hevents fun g hg => ?_
      exact within_step_call h (hvalue.trans (congrArg Except.ok hg))
  | error e => exact within_handle hstep base e hevents

/-! ### Whole calls -/

/-- The frames after a run are within the table, and it has the methods that a trace shows. -/
def Run.Within (t : MethodTable) : Run (List Event) → Prop
  | .ended _ m es | .running m es => m.stack.Within t ∧ t.Covers es

theorem within_runFor (h : m.stack.Within t) (base turns : Nat) {before : List Event}
    (hbefore : t.Covers before) : (runFor report base turns m before).Within t := by
  induction turns generalizing m before with
  | zero => exact ⟨h, hbefore⟩
  | succ turns ih =>
      have hturn := within_advance h base
      unfold runFor
      cases hadvance : m.advance base with
      | goesOn next es =>
          rw [hadvance] at hturn
          dsimp only
          rw [foldl_report]
          exact ih hturn.1 (hbefore.append hturn.2)
      | ended value next es =>
          rw [hadvance] at hturn
          dsimp only
          rw [foldl_report]
          exact ⟨hturn.1, hbefore.append hturn.2⟩

/-- **A call of loaded code** shows loaded methods, and leaves loaded code if it is cut off. -/
theorem within_invokeFor (h : m.stack.Within t) {home : Module} (hhome : home.Within t)
    (turns index : Nat) (args : List Word) :
    (m.invokeFor report turns home index args []).Within t := by
  unfold invokeFor
  cases hframe : firstFrame home index args with
  | error e => exact ⟨h, .nil⟩
  | ok frame =>
      have hfirst := (Frame.firstFrame_ok hframe).1.within hhome
      cases hroom : m.stack.room with
      | error e =>
          simp only [bind, Except.bind]
          exact ⟨h, .nil⟩
      | ok _ =>
          simp only [bind, Except.bind]
          exact within_runFor (h.push hfirst) _ turns (.method hfirst.method .enter)

end Machine

end TracedMachine
