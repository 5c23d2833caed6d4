import TracedMachine.Vm

/-!
# Proofs — Watched — Work

Work that is watched.  The operations of the machine list their events, and observers are shown the
lists.  Here the same operations are written the other way: a profiler, the thread's own counters
and a log stand beside the state (`Watched`), and an operation tells each of them whatever it has to
tell, at the place where it happens (`Work`).  Work can look at those who watch as well as at the
state, so nothing but the code itself keeps it from doing something else when a trace is open.

* **Transparency** (`Work.Transparent`) is a relation between two runs of the same work, on the same
  state but watched by others: both answer or throw the same, and leave the same state.  It holds of
  the single steps of work, and of what is put together from work of which it holds.
* `Outcome.result` is what an operation that lists its events comes to when these are shown.  Work
  that always comes to that is the operation, written the other way.
-/

namespace TracedMachine

/-- Something that is worked on, and those who watch. -/
structure Watched (σ : Type) where
  state : σ
  observers : Observers

/-- Work on a watched state.  It answers or throws; either way, what it has changed stays, and so
does what it has told. -/
abbrev Work (σ α : Type) := EStateM Throwable (Watched σ) α

/-- What work on a watched state comes to. -/
abbrev WorkResult (σ α : Type) := EStateM.Result Throwable (Watched σ) α

namespace Work

variable {σ τ α β : Type}

/-! ### Steps of work -/

/-- The state. -/
def state : Work σ σ := fun w => .ok w.state w

/-- Changes the state. -/
def change (f : σ → σ) : Work σ Unit := fun w => .ok () { w with state := f w.state }

/-- Changes those who watch. -/
def tell (f : Observers → Observers) : Work σ Unit := fun w =>
  .ok () { w with observers := f w.observers }

/-- Tells the profiler, which passes over what none of its consumers would hear. -/
def tellProfiler (e : Event) : Work σ Unit :=
  tell fun o => { o with profiler := o.profiler.observe o.thread e }

/-- Counts for the process. -/
def countForProcess (e : AllocEvent) : Work σ Unit :=
  tell fun o => { o with profiler := { o.profiler with alloc := o.profiler.alloc.record e } }

/-- Counts for the thread that the work is done for. -/
def countForThread (e : AllocEvent) : Work σ Unit :=
  tell fun o => { o with own := o.own.record e }

/-- Tells the log. -/
def tellLog (n : Notice) : Work σ Unit := tell fun o => { o with log := o.log.add n }

/-- Answers or throws. -/
def ofExcept : Except Throwable α → Work σ α
  | .ok a => pure a
  | .error t => throw t

/-- Does the work, and answers what it throws. -/
def attempt (x : Work σ α) : Work σ (Except Throwable α) := fun w =>
  match x.run w with
  | .ok a w => .ok (.ok a) w
  | .error t w => .ok (.error t) w

/-- Does the work, whatever comes of it. -/
def anyway (x : Work σ α) : Work σ Unit := do
  let _ ← x.attempt

/-- Does the work on a part of the state. -/
def onPart (part : σ → τ) (put : σ → τ → σ) (x : Work τ α) : Work σ α := fun w =>
  match x.run ⟨part w.state, w.observers⟩ with
  | .ok a v => .ok a ⟨put w.state v.state, v.observers⟩
  | .error t v => .error t ⟨put w.state v.state, v.observers⟩

section

variable (w : Watched σ)

@[simp] theorem run_state : (state : Work σ σ).run w = .ok w.state w := rfl

@[simp] theorem run_change (f : σ → σ) :
    (change f).run w = .ok () { w with state := f w.state } := rfl

@[simp] theorem run_tellProfiler (e : Event) :
    (tellProfiler e : Work σ Unit).run w =
      .ok () { w with observers := { w.observers with
        profiler := w.observers.profiler.observe w.observers.thread e } } := rfl

@[simp] theorem run_countForProcess (e : AllocEvent) :
    (countForProcess e : Work σ Unit).run w =
      .ok () { w with observers := { w.observers with
        profiler := { w.observers.profiler with
          alloc := w.observers.profiler.alloc.record e } } } := rfl

@[simp] theorem run_countForThread (e : AllocEvent) :
    (countForThread e : Work σ Unit).run w =
      .ok () { w with observers := { w.observers with own := w.observers.own.record e } } := rfl

@[simp] theorem run_tellLog (n : Notice) :
    (tellLog n : Work σ Unit).run w =
      .ok () { w with observers := { w.observers with log := w.observers.log.add n } } := rfl

@[simp] theorem run_ofExcept_ok (a : α) : (ofExcept (.ok a) : Work σ α).run w = .ok a w := rfl

theorem run_attempt (x : Work σ α) :
    x.attempt.run w =
      match x.run w with
      | .ok a w => .ok (.ok a) w
      | .error t w => .ok (.error t) w := rfl

theorem run_anyway (x : Work σ α) :
    x.anyway.run w =
      match x.run w with
      | .ok _ w | .error _ w => .ok () w := by
  simp only [anyway, EStateM.run_bind, run_attempt]
  cases x.run w <;> rfl

theorem run_onPart (part : σ → τ) (put : σ → τ → σ) (x : Work τ α) :
    (x.onPart part put).run w =
      match x.run ⟨part w.state, w.observers⟩ with
      | .ok a v => .ok a ⟨put w.state v.state, v.observers⟩
      | .error t v => .error t ⟨put w.state v.state, v.observers⟩ := rfl

end

/-! ### Two runs -/

/-- The same answer or throwable, and the same state.  Those who watch may differ. -/
inductive Agree : WorkResult σ α → WorkResult σ α → Prop
  | ok (a : α) (s : σ) (o₁ o₂ : Observers) : Agree (.ok a ⟨s, o₁⟩) (.ok a ⟨s, o₂⟩)
  | error (t : Throwable) (s : σ) (o₁ o₂ : Observers) : Agree (.error t ⟨s, o₁⟩) (.error t ⟨s, o₂⟩)

/-- **The relation between two runs.**  Whoever watches, the work comes to the same. -/
def Transparent (x : Work σ α) : Prop :=
  ∀ s o₁ o₂, Agree (x.run ⟨s, o₁⟩) (x.run ⟨s, o₂⟩)

namespace Transparent

theorem pure (a : α) : Transparent (Pure.pure a : Work σ α) := fun s o₁ o₂ => .ok a s o₁ o₂

theorem throw (t : Throwable) : Transparent (MonadExcept.throw t : Work σ α) :=
  fun s o₁ o₂ => .error t s o₁ o₂

theorem state : Transparent (Work.state : Work σ σ) := fun s o₁ o₂ => .ok s s o₁ o₂

theorem change (f : σ → σ) : Transparent (Work.change f) := fun s o₁ o₂ => .ok () (f s) o₁ o₂

theorem tell (f : Observers → Observers) : Transparent (Work.tell f : Work σ Unit) :=
  fun s o₁ o₂ => .ok () s (f o₁) (f o₂)

theorem ofExcept (value : Except Throwable α) :
    Transparent (Work.ofExcept value : Work σ α) := by
  cases value with
  | ok a => exact .pure a
  | error t => exact .throw t

/-- Work after work. -/
theorem bind {x : Work σ α} {f : α → Work σ β} (hx : x.Transparent)
    (hf : ∀ a, (f a).Transparent) : (x >>= f).Transparent := by
  intro s o₁ o₂
  have hfirst := hx s o₁ o₂
  rw [EStateM.run_bind, EStateM.run_bind]
  generalize x.run ⟨s, o₁⟩ = r₁, x.run ⟨s, o₂⟩ = r₂ at hfirst ⊢
  cases hfirst with
  | ok a s' o₁' o₂' => exact hf a s' o₁' o₂'
  | error t s' o₁' o₂' => exact .error t s' o₁' o₂'

/-- Work whose throwables are answered. -/
theorem attempt {x : Work σ α} (hx : x.Transparent) : x.attempt.Transparent := by
  intro s o₁ o₂
  have hresult := hx s o₁ o₂
  rw [run_attempt, run_attempt]
  generalize x.run ⟨s, o₁⟩ = r₁, x.run ⟨s, o₂⟩ = r₂ at hresult ⊢
  cases hresult with
  | ok a s' o₁' o₂' => exact .ok (Except.ok a) s' o₁' o₂'
  | error t s' o₁' o₂' => exact .ok (Except.error t) s' o₁' o₂'

/-- Work whose answer does not matter. -/
theorem anyway {x : Work σ α} (hx : x.Transparent) : x.anyway.Transparent :=
  .bind hx.attempt fun _ => .pure ()

/-- Work on a part of the state. -/
theorem onPart {x : Work τ α} (hx : x.Transparent) (part : σ → τ) (put : σ → τ → σ) :
    (x.onPart part put).Transparent := by
  intro s o₁ o₂
  have hresult := hx (part s) o₁ o₂
  rw [run_onPart, run_onPart]
  generalize x.run ⟨part s, o₁⟩ = r₁, x.run ⟨part s, o₂⟩ = r₂ at hresult ⊢
  cases hresult with
  | ok a v o₁' o₂' => exact .ok a (put s v) o₁' o₂'
  | error t v o₁' o₂' => exact .error t (put s v) o₁' o₂'

theorem tellProfiler (e : Event) : Transparent (Work.tellProfiler e : Work σ Unit) := .tell _

theorem countForProcess (e : AllocEvent) : Transparent (Work.countForProcess e : Work σ Unit) :=
  .tell _

theorem countForThread (e : AllocEvent) : Transparent (Work.countForThread e : Work σ Unit) :=
  .tell _

theorem tellLog (n : Notice) : Transparent (Work.tellLog n : Work σ Unit) := .tell _

end Transparent

end Work

/-! ### Events that are shown -/

namespace Outcome

variable {σ α : Type}

/-- What is left when the events have been shown. -/
def shown (done : Outcome σ Event α) (o : Observers) : Watched σ :=
  ⟨done.state, done.events.foldl Observers.observe o⟩

/-- What an operation that may throw comes to when its events have been shown. -/
def result (done : Outcome σ Event (Except Throwable α)) (o : Observers) : WorkResult σ α :=
  match done.value with
  | .ok a => .ok a (done.shown o)
  | .error t => .error t (done.shown o)

end Outcome

/-- Work that comes to what an operation comes to answers, with its throwables answered, what the
operation answers. -/
theorem Work.run_attempt_result {σ α : Type} {x : Work σ α} {w : Watched σ}
    {done : Outcome σ Event (Except Throwable α)} {o : Observers} (h : x.run w = done.result o) :
    x.attempt.run w = .ok done.value (done.shown o) := by
  rw [run_attempt, h, Outcome.result]
  cases done.value <;> rfl

end TracedMachine
