import TracedMachine.Proofs.Machine.Turn

/-!
# Proofs — Machine — Pending

What becomes of a throwable that was caught.  It is pending from the turn that enters its handler to
the next `move-exception`, and nothing else ends that: neither leaving the method of the handler nor
the end of the call.

**Pending throwables** (`Machine.pending_taken_iff`).  A call that begins with nothing pending ends
so if and only if each throwable that it has caught was followed by a turn that takes.  That is
certain for a module in which every handler begins with a `move-exception`
(`Module.HandlersTake`).  Where a handler leaves its throwable, the throwable outlives the call, and
the next call can take it though it has caught nothing (`Machine.pending_outlives_call`).

A turn either catches, or takes, or leaves what is pending (`Machine.Goes.pending_cases`).  Over a
run, the machines that it passes through are those after a number of turns (`Machine.RunsTo`), and
the two properties of a run that matter are read off its first turn and the rest of it
(`Machine.takesLater_goesOn`, `Machine.takesAll_goesOn`).
-/

namespace TracedMachine

namespace Machine

variable {m m' x : Machine} {base : Nat}

/-! ### Turns that catch and turns that take -/

/-- The next turn throws, and a handler above `base` is entered for it. -/
def Catches (m : Machine) (base : Nat) : Prop :=
  m.thrown?.isSome ∧ ∃ m' es, m.advance base = .goesOn m' es

/-- The next turn takes what is pending. -/
def Takes (m : Machine) : Prop :=
  m.thrown? = none ∧ ∃ f rest dst, m.stack.frames = f :: rest ∧
    decodeAt f.method.code f.pc = .ok (.moveException dst)

theorem Catches.not_takes (h : m.Catches base) : ¬ m.Takes := by
  intro htakes
  have hthrown := h.1
  rw [htakes.1] at hthrown
  cases hthrown

/-- Whether a turn takes is a matter of the instruction. -/
theorem takes_iff {f : Frame} {rest : List Frame} {i : Instruction} (hthrown : m.thrown? = none)
    (hf : m.stack.frames = f :: rest) (hi : decodeAt f.method.code f.pc = .ok i) :
    m.Takes ↔ i.takesPending = true := by
  constructor
  · rintro ⟨-, g, rest', dst, hg, hdst⟩
    obtain ⟨rfl, -⟩ := List.cons.inj (hf.symm.trans hg)
    rw [hi] at hdst
    cases hdst
    rfl
  · intro htakes
    cases i with
    | moveException dst => exact ⟨hthrown, f, rest, dst, hf, hi⟩
    | _ => cases htakes

/-- A turn that goes on catches, or takes, or leaves what is pending. -/
theorem Goes.pending_cases {own own' below : List Frame} (h : m.Goes m' own own')
    (hframes : m.stack.frames = own ++ below) :
    (m.thrown?.isSome ∧ m'.stack.pending ≠ none) ∨ (m.Takes ∧ m'.stack.pending = none) ∨
      (m.thrown? = none ∧ ¬ m.Takes ∧ m'.stack.pending = m.stack.pending) := by
  cases h with
  | @moves f own i _ _ unthrown decoded leads pending =>
      have htakes := takes_iff unthrown hframes decoded
      cases hi : i.takesPending with
      | true =>
          rw [hi, if_pos rfl] at pending
          exact .inr (.inl ⟨htakes.mpr hi, pending⟩)
      | false =>
          have hkeeps : ¬ m.Takes := fun h => Bool.noConfusion (hi.symm.trans (htakes.mp h))
          rw [hi, if_neg Bool.false_ne_true] at pending
          exact .inr (.inr ⟨unthrown, hkeeps, pending⟩)
  | enters unthrown decoded kept _ _ pending =>
      have htakes := takes_iff unthrown hframes decoded
      rw [kept] at htakes
      exact .inr (.inr ⟨unthrown, fun h => Bool.false_ne_true (htakes.mp h), pending⟩)
  | returns unthrown decoded kept pending =>
      have htakes := takes_iff unthrown hframes decoded
      rw [kept] at htakes
      exact .inr (.inr ⟨unthrown, fun h => Bool.false_ne_true (htakes.mp h), pending⟩)
  | catches thrown _ pending =>
      rw [thrown, pending]
      exact .inl ⟨rfl, Option.some_ne_none _⟩

/-- A turn that ends the call neither catches nor takes. -/
theorem not_takes_ended {value : Except Throwable Word} {es : List Event}
    (h : m.advance base = .ended value m' es) : ¬ m.Takes := by
  rintro ⟨hthrown, f, rest, dst, hf, hdst⟩
  exact Bool.noConfusion ((pending_ended h).2 hthrown f rest _ hf hdst)

theorem not_catches_ended {value : Except Throwable Word} {es : List Event}
    (h : m.advance base = .ended value m' es) : ¬ m.Catches base := by
  rintro ⟨-, next, new, hgoesOn⟩
  rw [h] at hgoesOn
  cases hgoesOn

/-! ### Runs -/

/-- The observer that ignores the events. -/
def ignore (_ : Unit) (_ : Event) : Unit := ()

/-- The machine `x` is reached after so many turns. -/
def RunsTo (base turns : Nat) (m x : Machine) : Prop :=
  runFor ignore base turns m () = .running x ()

/-- Some turn takes, now or later. -/
def TakesLater (base : Nat) (m : Machine) : Prop := ∃ k x, RunsTo base k m x ∧ x.Takes

/-- Each turn that catches is followed by one that takes. -/
def TakesAll (base : Nat) (m : Machine) : Prop :=
  ∀ k x, RunsTo base k m x → x.Catches base → ∃ j y, k < j ∧ RunsTo base j m y ∧ y.Takes

theorem runsTo_zero : RunsTo base 0 m x ↔ x = m := by
  constructor
  · rintro ⟨⟩
    rfl
  · rintro rfl
    rfl

section

variable {es : List Event}

theorem runsTo_succ (h : m.advance base = .goesOn m' es) {k : Nat} :
    RunsTo base (k + 1) m x ↔ RunsTo base k m' x := by
  unfold RunsTo
  rw [runFor, h]

theorem not_runsTo_succ {value : Except Throwable Word} (h : m.advance base = .ended value m' es)
    {k : Nat} : ¬ RunsTo base (k + 1) m x := by
  unfold RunsTo
  rw [runFor, h]
  intro hrun
  cases hrun

theorem takesLater_goesOn (h : m.advance base = .goesOn m' es) :
    TakesLater base m ↔ m.Takes ∨ TakesLater base m' := by
  constructor
  · rintro ⟨k, x, hrun, htakes⟩
    cases k with
    | zero => exact .inl (runsTo_zero.mp hrun ▸ htakes)
    | succ k => exact .inr ⟨k, x, (runsTo_succ h).mp hrun, htakes⟩
  · rintro (htakes | ⟨k, x, hrun, htakes⟩)
    · exact ⟨0, m, runsTo_zero.mpr rfl, htakes⟩
    · exact ⟨k + 1, x, (runsTo_succ h).mpr hrun, htakes⟩

theorem takesAll_goesOn (h : m.advance base = .goesOn m' es) :
    TakesAll base m ↔ (m.Catches base → TakesLater base m') ∧ TakesAll base m' := by
  constructor
  · intro hall
    refine ⟨fun hcatches => ?_, fun k x hrun hcatches => ?_⟩
    · obtain ⟨j, y, hj, hrun, htakes⟩ := hall 0 m (runsTo_zero.mpr rfl) hcatches
      obtain ⟨j, rfl⟩ := Nat.exists_eq_add_one_of_ne_zero (Nat.ne_of_gt hj)
      exact ⟨j, y, (runsTo_succ h).mp hrun, htakes⟩
    · obtain ⟨j, y, hj, hrun', htakes⟩ := hall (k + 1) x ((runsTo_succ h).mpr hrun) hcatches
      obtain ⟨j, rfl⟩ := Nat.exists_eq_add_one_of_ne_zero (Nat.ne_of_gt (Nat.zero_lt_of_lt hj))
      exact ⟨j, y, Nat.lt_of_succ_lt_succ hj, (runsTo_succ h).mp hrun', htakes⟩
  · rintro ⟨hfirst, hrest⟩ k x hrun hcatches
    cases k with
    | zero =>
        obtain ⟨j, y, hrun', htakes⟩ := hfirst (runsTo_zero.mp hrun ▸ hcatches)
        exact ⟨j + 1, y, Nat.succ_pos j, (runsTo_succ h).mpr hrun', htakes⟩
    | succ k =>
        obtain ⟨j, y, hj, hrun', htakes⟩ := hrest k x ((runsTo_succ h).mp hrun) hcatches
        exact ⟨j + 1, y, Nat.succ_lt_succ hj, (runsTo_succ h).mpr hrun', htakes⟩

theorem not_takesLater_ended {value : Except Throwable Word}
    (h : m.advance base = .ended value m' es) : ¬ TakesLater base m := by
  rintro ⟨k, x, hrun, htakes⟩
  cases k with
  | zero => exact not_takes_ended h (runsTo_zero.mp hrun ▸ htakes)
  | succ k => exact not_runsTo_succ h hrun

theorem takesAll_ended {value : Except Throwable Word} (h : m.advance base = .ended value m' es) :
    TakesAll base m := by
  intro k x hrun hcatches
  cases k with
  | zero => exact absurd (runsTo_zero.mp hrun ▸ hcatches) (not_catches_ended h)
  | succ k => exact absurd hrun (not_runsTo_succ h)

end

section

variable {home : Module} {below : Stack} {own : List Frame}

/-- **What is pending after a run.**  Nothing is if and only if what was pending before has been
taken, and each throwable that was caught as well. -/
theorem pending_runFor {turns : Nat} {value : Except Throwable Word}
    (hcalling : Stack.Calling home below m.stack own)
    (hrun : runFor ignore below.depth turns m () = .ended value m' ()) :
    m'.stack.pending = none ↔
      (m.stack.pending = none ∨ TakesLater below.depth m) ∧ TakesAll below.depth m := by
  induction turns generalizing m own with
  | zero => cases hrun
  | succ turns ih =>
      rw [runFor] at hrun
      cases hturn : m.advance below.depth with
      | ended v next es =>
          rw [hturn] at hrun
          cases hrun
          rw [(pending_ended hturn).1, or_iff_left (not_takesLater_ended hturn),
            and_iff_left (takesAll_ended hturn)]
      | goesOn next es =>
          rw [hturn] at hrun
          obtain ⟨own', hcalling', hgoes⟩ := hcalling.advance hturn
          rw [ih hcalling' hrun, takesLater_goesOn hturn, takesAll_goesOn hturn]
          rcases hgoes.pending_cases hcalling.frames with
            ⟨hthrown, hpending⟩ | ⟨htakes, hpending⟩ | ⟨hthrown, hkeeps, hpending⟩
          · -- what is caught has to be taken later
            have hcatches : m.Catches below.depth := ⟨hthrown, next, es, hturn⟩
            have hkeeps := hcatches.not_takes
            simp only [hpending, hcatches, hkeeps, false_or, forall_const]
            exact ⟨fun h => ⟨.inr h.1, h⟩, fun h => h.2⟩
          · -- what was pending is settled, and nothing is owed for this turn
            have hcatches : ¬ m.Catches below.depth := fun h => h.not_takes htakes
            simp only [hpending, htakes, hcatches, true_or, or_true, true_and, false_implies]
          · -- the turn settles nothing and owes nothing
            have hcatches : ¬ m.Catches below.depth := by
              rintro ⟨hsome, -⟩
              rw [hthrown] at hsome
              cases hsome
            simp only [hpending, hkeeps, hcatches, false_or, false_implies, true_and]

/-- The frames of a call that has not ended. -/
theorem calling_runsTo {k : Nat} (hcalling : Stack.Calling home below m.stack own)
    (hrun : RunsTo below.depth k m x) : ∃ own', Stack.Calling home below x.stack own' := by
  induction k generalizing m own with
  | zero =>
      obtain rfl := runsTo_zero.mp hrun
      exact ⟨own, hcalling⟩
  | succ k ih =>
      cases hturn : m.advance below.depth with
      | ended v next es => exact absurd hrun (not_runsTo_succ hturn)
      | goesOn next es =>
          obtain ⟨own', hcalling', -⟩ := hcalling.advance hturn
          exact ih hcalling' ((runsTo_succ hturn).mp hrun)

theorem runsTo_next {k : Nat} {es : List Event} (hrun : RunsTo base k m x)
    (hturn : x.advance base = .goesOn m' es) : RunsTo base (k + 1) m m' := by
  induction k generalizing m with
  | zero =>
      obtain rfl := runsTo_zero.mp hrun
      exact (runsTo_succ hturn).mpr (runsTo_zero.mpr rfl)
  | succ k ih =>
      cases hfirst : m.advance base with
      | ended v next new => exact absurd hrun (not_runsTo_succ hfirst)
      | goesOn next new => exact (runsTo_succ hfirst).mpr (ih ((runsTo_succ hfirst).mp hrun))

end

end Machine

/-! ### Handlers that take -/

/-- Every handler begins with a `move-exception` into a register of its method. -/
def Module.HandlersTake (home : Module) : Prop :=
  ∀ method ∈ home.methods, ∀ e ∈ method.catches, ∃ dst,
    decodeAt method.code e.handler = .ok (.moveException dst) ∧ dst.toNat < method.registers

namespace Machine

variable {m m' x : Machine} {home : Module} {below : Stack} {own : List Frame}

/-- A `move-exception` into a register takes what is pending. -/
theorem takes_pending {f : Frame} {rest : List Frame} {dst : UInt8} {t : Throwable}
    (hf : m.stack.frames = f :: rest) (hi : decodeAt f.method.code f.pc = .ok (.moveException dst))
    (hdst : dst.toNat < f.registers.size) (hpending : m.stack.pending = some t) : m.Takes := by
  have hcheck : f.registers.check dst.toNat = .ok () := if_pos hdst
  have hvalue : m.step.value = .ok (.next 1) := by
    simp only [step_eq hf, hi, execute, Frame.plan, hpending, hcheck]
    rfl
  exact ⟨by simp only [thrown?, hvalue], f, rest, dst, hf, hi⟩

/-- After a turn that catches, the handler takes. -/
theorem takes_of_catches (hhandlers : home.HandlersTake)
    (hcalling : Stack.Calling home below x.stack own) (hcatches : x.Catches below.depth) :
    ∃ y es, x.advance below.depth = .goesOn y es ∧ y.Takes := by
  obtain ⟨hthrown, y, es, hturn⟩ := hcatches
  refine ⟨y, es, hturn, ?_⟩
  obtain ⟨own', hcalling', hgoes⟩ := hcalling.advance hturn
  have hruns := hcalling'.callFrames.2.runs
  have hframes := hcalling'.frames
  have hlisted := hcalling'.listed
  cases hgoes with
  | moves unthrown | enters unthrown | returns unthrown =>
      rw [unthrown] at hthrown
      cases hthrown
  | @catches t f left own handler _ found pending =>
      obtain ⟨e, hfind, rfl⟩ := Option.map_eq_some_iff.mp found
      have hmethod : f.method ∈ home.methods :=
        hlisted { f with pc := e.handler } List.mem_cons_self
      obtain ⟨dst, hi, hdst⟩ := hhandlers f.method hmethod e (List.mem_of_find?_eq_some hfind)
      have hsize := (hruns _ List.mem_cons_self).size_eq
      exact takes_pending hframes hi (Nat.lt_of_lt_of_eq hdst hsize.symm) pending

theorem takesAll_of_handlers (hhandlers : home.HandlersTake)
    (hcalling : Stack.Calling home below m.stack own) : TakesAll below.depth m := by
  intro k x hrun hcatches
  obtain ⟨own', hcalling'⟩ := calling_runsTo hcalling hrun
  obtain ⟨y, es, hturn, htakes⟩ := takes_of_catches hhandlers hcalling' hcatches
  exact ⟨k + 1, y, Nat.lt_succ_self k, runsTo_next hrun hturn, htakes⟩

/-! ### Calls -/

/-- A call passes through the machine `x`: it has not ended after so many turns, and this is where
it stands. -/
def Passes (m : Machine) (home : Module) (index : Nat) (args : List Word) (turns : Nat)
    (x : Machine) : Prop :=
  m.invokeFor ignore turns home index args () = .running x ()

/-- **Pending throwables.**  A call that begins with nothing pending ends with nothing pending if
and only if each turn of it that catches is followed by one that takes.  If all handlers of its
module begin with a `move-exception`, it does. -/
theorem pending_taken_iff {index : Nat} {args : List Word} {value : Except Throwable Word}
    {es : List Event} (hnone : m.stack.pending = none)
    (hcall : m.Calls home index args value m' es) :
    (m'.stack.pending = none ↔ ∀ k x, m.Passes home index args k x → x.Catches m.stack.depth →
      ∃ j y, k < j ∧ m.Passes home index args j y ∧ y.Takes) ∧
    (home.HandlersTake → m'.stack.pending = none) := by
  obtain ⟨turns, hreported⟩ := hcall
  have hrun : m.invokeFor ignore turns home index args () = .ended value m' () := by
    rw [invokeFor_observe, hreported]
    rfl
  unfold Passes
  obtain ⟨frame, hentered, hroom, hbegun⟩ | ⟨t, hrefused⟩ :=
    invokeFor_cases ignore m home index args
  · have hcalling := Stack.Calling.begun hentered hroom
    rw [hbegun] at hrun
    simp only [hbegun]
    have hexact := (pending_runFor hcalling hrun).trans (and_iff_right (.inl hnone))
    exact ⟨hexact, fun hhandlers => hexact.mpr (takesAll_of_handlers hhandlers hcalling)⟩
  · -- nothing has been run
    rw [hrefused] at hrun
    cases hrun
    simp only [hrefused]
    refine ⟨⟨fun _ k x hpasses => ?_, fun _ => hnone⟩, fun _ => hnone⟩
    cases hpasses

end Machine

namespace Sample

/-- A machine that runs nothing. -/
def idle : Machine := { stack := .empty 8, store := vm.store }

/-- `drop` catches what it throws and does not look at it.  `take` asks for something caught. -/
def careless : Module :=
  { cache := 0
    classRefs := #[]
    methods := #[
      { Demo.method "drop" "()V" 0 0 [.throwNew 4, .returnVoid]
          [{ first := 0, limit := 1, handler := 1, kind := none }] with id := .ofIndex 1 },
      { Demo.method "take" "()I" 1 0 [.moveException 0, .returnValue 0] [] with
          id := .ofIndex 2 }] }

end Sample

namespace Machine

/-- What `explode` throws is caught by `probe`, which takes it. -/
theorem pending_taken_iff_probe :
    Sample.begun.stack.pending = none ∧ Demo.home.HandlersTake ∧
      ∃ m' es, Sample.begun.Calls Demo.home 2 [] (.ok 1) m' es ∧ m'.stack.pending = none := by
  have hhandlers : Demo.home.HandlersTake := by
    have htake : ∀ method ∈ Demo.home.methods, ∀ e ∈ method.catches,
        decodeAt method.code e.handler = .ok (.moveException 0) ∧ 0 < method.registers := by
      decide
    exact fun method hmethod e he => ⟨0, htake method hmethod e he⟩
  obtain ⟨m', es, hcall⟩ : ∃ m' es, Sample.begun.Calls Demo.home 2 [] (.ok 1) m' es :=
    ⟨_, _, 6, rfl⟩
  exact ⟨rfl, hhandlers, m', es, hcall, (pending_taken_iff rfl hcall).2 hhandlers⟩

/-- **A throwable outlives its call.**  It was caught by a handler that did not take it, and the
next call, which throws nothing, takes it.  Without the first call there is nothing to take. -/
theorem pending_outlives_call :
    ∃ m₁ es₁ m₂ es₂ m₃ es₃, Sample.idle.stack.frames = [] ∧ Sample.idle.stack.pending = none ∧
      Sample.idle.Calls Sample.careless 0 [] (.ok 0) m₁ es₁ ∧
      m₁.stack.frames = [] ∧ m₁.stack.pending = some (.raised .nullPointer none) ∧
      m₁.Calls Sample.careless 1 [] (.ok 4) m₂ es₂ ∧
      Sample.idle.Calls Sample.careless 1 [] (.error (.verify .noPendingException)) m₃ es₃ :=
  ⟨_, _, _, _, _, _, rfl, rfl, ⟨3, rfl⟩, rfl, rfl, ⟨3, rfl⟩, ⟨3, rfl⟩⟩

end Machine

end TracedMachine
