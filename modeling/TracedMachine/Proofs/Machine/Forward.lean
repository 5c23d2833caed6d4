import TracedMachine.Proofs.Machine.Turn
import Mathlib.Algebra.Group.Nat.Defs

/-!
# Proofs — Machine — Forward

Code without loops.  A module is *forward only* if its branches lead to higher addresses and the
handlers of its methods stand behind the ranges that they are for.  Its methods may call each other
in any way, and nothing is asked of the rest of the code.

**Termination** (`Machine.forward_calls_end`).  Every call of a forward-only module ends, within a
number of turns that is known before it begins.

What makes a turn progress depends on the turn: a frame goes on, but may call without moving, and
a call that is left or unwound makes its caller go on.  So a frame's way ahead (`Frame.ahead`) is
weighed by the room above it (`Frame.owed`).  One step of a frame is worth more than all that can
happen above it, and the turns that are left to a call (`Frame.budget`) fall with every turn
(`Machine.Goes.budget_lt`).  Code may run past its end: there no instruction is found, and a frame
that has passed its last range as well can only be left.
-/

namespace TracedMachine

/-! ### Forward-only code -/

/-- Branches lead to higher addresses, and handlers stand behind their ranges. -/
structure Method.ForwardOnly (method : Method) : Prop where
  branches : ∀ pc i offset, decodeAt method.code pc = .ok i → i.offset? = some offset → 0 < offset
  handlers : ∀ e ∈ method.catches, e.limit ≤ e.handler

/-- All methods of the module are forward only. -/
def Module.ForwardOnly (home : Module) : Prop := ∀ method ∈ home.methods, method.ForwardOnly

/-- The first address behind the code and behind all ranges. -/
def Method.reach (method : Method) : Nat :=
  method.catches.foldr (fun e n => max e.limit n) method.code.size

/-- The highest such address among the methods. -/
def Module.reach (home : Module) : Nat :=
  home.methods.toList.foldr (fun method n => max method.reach n) 0

theorem le_foldr_max {α : Type} (f : α → Nat) (n : Nat) {l : List α} :
    n ≤ l.foldr (fun a k => max (f a) k) n ∧ ∀ a ∈ l, f a ≤ l.foldr (fun a k => max (f a) k) n := by
  induction l with
  | nil => exact ⟨Nat.le_refl n, fun a ha => nomatch ha⟩
  | cons b l ih =>
      refine ⟨Nat.le_trans ih.1 (Nat.le_max_right _ _), List.forall_mem_cons.mpr ⟨?_, ?_⟩⟩
      · exact Nat.le_max_left _ _
      · exact fun a ha => Nat.le_trans (ih.2 a ha) (Nat.le_max_right _ _)

theorem Module.reach_le {home : Module} {method : Method} (h : method ∈ home.methods) :
    method.reach ≤ home.reach :=
  (le_foldr_max Method.reach 0).2 method (Array.mem_toList_iff.mpr h)

theorem lt_size_of_decodeAt {code : Array CodeUnit} {pc : Nat} {i : Instruction}
    (h : decodeAt code pc = .ok i) : pc < code.size := by
  unfold decodeAt at h
  split at h
  · cases h
  · next hunit => exact (Array.getElem?_eq_some_iff.mp hunit).1

theorem toOption_eq_some {ε α : Type} {x : Except ε α} {a : α} :
    x.toOption = some a ↔ x = .ok a := by
  cases x <;> simp [Except.toOption]

namespace Method

variable {method : Method} {pc : Nat}

/-- There are no instructions outside the code. -/
theorem forwardOnly_iff : method.ForwardOnly ↔
    (∀ pc < method.code.size, ∀ i ∈ (decodeAt method.code pc).toOption,
      ∀ offset ∈ i.offset?, 0 < offset) ∧ ∀ e ∈ method.catches, e.limit ≤ e.handler := by
  refine ⟨fun h => ⟨fun pc _ i hi offset hoffset => ?_, h.handlers⟩, fun h => ⟨?_, h.2⟩⟩
  · exact h.branches pc i offset (toOption_eq_some.mp hi) hoffset
  · intro pc i offset hi hoffset
    exact h.1 pc (lt_size_of_decodeAt hi) i (toOption_eq_some.mpr hi) offset hoffset

instance : Decidable method.ForwardOnly := decidable_of_iff _ forwardOnly_iff.symm

theorem lt_reach_of_decodeAt {i : Instruction} (h : decodeAt method.code pc = .ok i) :
    pc < method.reach :=
  Nat.lt_of_lt_of_le (lt_size_of_decodeAt h) (le_foldr_max CatchEntry.limit method.code.size).1

namespace ForwardOnly

theorem leadsTo (h : method.ForwardOnly) {i : Instruction} {target : Nat}
    (hi : decodeAt method.code pc = .ok i) (hleads : i.LeadsTo pc target) : pc < target := by
  rcases hleads with hnext | ⟨offset, hoffset, htarget⟩
  · have hwidth := i.width_pos
    omega
  · have hpos := h.branches pc i offset hi hoffset
    omega

/-- A handler stands behind the address that it is for, which is in the range of its entry. -/
theorem handler (h : method.ForwardOnly) {kind : ThrowableKind} {target : Nat}
    (hfound : method.handler? pc kind = some target) : pc < target ∧ pc < method.reach := by
  obtain ⟨e, hfind, rfl⟩ := Option.map_eq_some_iff.mp hfound
  have hmem : e ∈ method.catches := List.mem_of_find?_eq_some hfind
  have hcovers := List.find?_some hfind
  have hlimit : pc < e.limit := by
    simp only [CatchEntry.covers, Bool.and_eq_true, decide_eq_true_eq] at hcovers
    exact hcovers.1.2
  have hreach : e.limit ≤ method.reach := (le_foldr_max CatchEntry.limit method.code.size).2 e hmem
  exact ⟨Nat.lt_of_lt_of_le hlimit (h.handlers e hmem), Nat.lt_of_lt_of_le hlimit hreach⟩

end ForwardOnly

end Method

instance (home : Module) : Decidable home.ForwardOnly :=
  inferInstanceAs (Decidable (∀ method ∈ home.methods, method.ForwardOnly))

/-! ### The turns that are left -/

namespace Frame

/-- How far the frame can still go on. -/
def ahead (f : Frame) : Nat := f.method.reach - f.pc

theorem ahead_lt {f : Frame} {pc : Nat} {registers : Registers} (hreach : f.pc < f.method.reach)
    (hpc : f.pc < pc) : { f with pc, registers }.ahead < f.ahead := by
  show f.method.reach - pc < f.method.reach - f.pc
  omega

/-- What the ways ahead of frames are worth, where there is room for `room` frames: each is
multiplied by `weight` once for every frame that there is room for above it. -/
def owed (weight room : Nat) : List Frame → Nat
  | [] => 0
  | f :: rest => f.ahead * weight ^ (room - (rest.length + 1)) + owed weight room rest

/-- The turns that are left to a call.  The innermost frame may be left without going on. -/
def budget (weight room : Nat) (own : List Frame) : Nat :=
  weight ^ (room - own.length) + owed weight room own

variable {weight room : Nat}

theorem owed_lt_budget (hweight : 0 < weight) (own : List Frame) :
    owed weight room own < budget weight room own :=
  Nat.lt_add_of_pos_left (Nat.pow_pos hweight)

/-- A frame that goes on, the frames above it being left. -/
theorem budget_moved {f g : Frame} (h : g.ahead < f.ahead) (left rest : List Frame) :
    budget weight room (g :: rest) ≤ owed weight room (left ++ f :: rest) := by
  induction left with
  | nil =>
      have hstep := Nat.mul_le_mul_right (weight ^ (room - (rest.length + 1))) h
      rw [Nat.succ_mul] at hstep
      simp only [budget, owed, List.length_cons, List.nil_append]
      omega
  | cons _ left ih => exact Nat.le_trans ih (Nat.le_add_left _ _)

/-- A frame that is entered. -/
theorem budget_entered {g : Frame} {own : List Frame} (hweight : g.ahead + 1 < weight)
    (hroom : own.length < room) : budget weight room (g :: own) < budget weight room own := by
  obtain ⟨k, hk⟩ : ∃ k, room - own.length = k + 1 := ⟨room - own.length - 1, by omega⟩
  have hk' : room - (own.length + 1) = k := by omega
  have hpos : 0 < weight ^ k := Nat.pow_pos (by omega)
  -- one power of the weight pays for the whole way ahead of the new frame, and for leaving it
  have hless := Nat.mul_lt_mul_of_pos_right hweight hpos
  rw [Nat.succ_mul] at hless
  simp only [budget, owed, List.length_cons, hk, hk', Nat.pow_succ]
  rw [Nat.mul_comm (weight ^ k) weight]
  omega

end Frame

/-- **Every turn counts.**  A turn of a forward-only call takes at least one from the turns that are
left to it. -/
theorem Machine.Goes.budget_lt {home : Module} {below : Stack} {own own' : List Frame}
    {m m' : Machine} (hforward : home.ForwardOnly) (hcalling : Stack.Calling home below m.stack own)
    (h : m.Goes m' own own') :
    Frame.budget (home.reach + 2) (below.limit - below.depth) own' <
      Frame.budget (home.reach + 2) (below.limit - below.depth) own := by
  have hmoved : ∀ {f g : Frame} (left : List Frame) {rest : List Frame}, own = left ++ f :: rest →
      g.ahead < f.ahead → Frame.budget (home.reach + 2) (below.limit - below.depth) (g :: rest) <
        Frame.budget (home.reach + 2) (below.limit - below.depth) own := by
    rintro f g left rest rfl hless
    exact Nat.lt_of_le_of_lt (Frame.budget_moved hless left rest)
      (Frame.owed_lt_budget (Nat.succ_pos _) _)
  have hlisted := hcalling.listed
  cases h with
  | @moves f own _ _ _ _ decoded leads =>
      have hf := hforward _ (hlisted f List.mem_cons_self)
      exact hmoved [] rfl
        (Frame.ahead_lt (Method.lt_reach_of_decodeAt decoded) (hf.leadsTo decoded leads))
  | @enters f g own _ _ _ _ _ entered room =>
      have hhome : f.home = home := (hcalling.callFrames.2.runs f List.mem_cons_self).home_eq
      have hreach : g.method.reach ≤ home.reach := Module.reach_le (hhome ▸ entered.listed)
      have hdepth := hcalling.depth_eq
      have hlimit := hcalling.inCall.limit
      refine Frame.budget_entered ?_ ?_
      · show g.method.reach - g.pc + 1 < home.reach + 2
        omega
      · omega
  | @returns f caller own =>
      -- the caller is parked on an instruction, so it has not passed its code
      obtain ⟨⟨_, _, _, hparked, -, -⟩, -⟩ :=
        List.isChain_cons_cons.mp hcalling.callFrames.2.parked
      exact hmoved [f] rfl
        (Frame.ahead_lt (Method.lt_reach_of_decodeAt hparked)
          (Nat.lt_add_of_pos_right Opcode.invoke.width_pos))
  | @catches t f left own handler _ found =>
      have hf := hforward _ (hlisted f (List.mem_append_right _ List.mem_cons_self))
      obtain ⟨hpc, hreach⟩ := hf.handler found
      exact hmoved left rfl (Frame.ahead_lt hreach hpc)

/-! ### Calls -/

namespace Machine

section

variable {σ : Type} (observe : σ → Event → σ) {home : Module}

/-- A run of as many turns as are left to a call ends it. -/
theorem forward_runs_end (hforward : home.ForwardOnly) {below : Stack} {own : List Frame}
    {turns : Nat} {m : Machine} {s : σ} (hcalling : Stack.Calling home below m.stack own)
    (hturns : Frame.budget (home.reach + 2) (below.limit - below.depth) own ≤ turns) :
    ∃ value m' s', runFor observe below.depth turns m s = .ended value m' s' := by
  induction turns generalizing m own s with
  | zero =>
      have hpos : Frame.owed (home.reach + 2) (below.limit - below.depth) own <
          Frame.budget (home.reach + 2) (below.limit - below.depth) own :=
        Frame.owed_lt_budget (Nat.succ_pos _) own
      omega
  | succ turns ih =>
      unfold runFor
      cases hturn : m.advance below.depth with
      | ended value m' es => exact ⟨value, m', _, rfl⟩
      | goesOn m' es =>
          obtain ⟨own', hcalling', hgoes⟩ := hcalling.advance hturn
          have hless := hgoes.budget_lt hforward hcalling
          exact ih hcalling' (by omega)

/-- **Forward-only programs terminate.**  Whatever the machine, the method and the arguments, and
whoever observes: a call of a forward-only module has ended after as many turns as a number beyond
all addresses of the module, raised to the number of frames there is room for. -/
theorem forward_calls_end (hforward : home.ForwardOnly) (m : Machine) (index : Nat)
    (args : List Word) (s : σ) :
    ∃ value m' s', m.invokeFor observe ((home.reach + 2) ^ (m.stack.limit - m.stack.depth)) home
      index args s = .ended value m' s' := by
  obtain ⟨frame, hentered, hroom, hbegun⟩ | ⟨t, hrefused⟩ :=
    invokeFor_cases observe m home index args
  · rw [hbegun]
    have hreach := Module.reach_le hentered.listed
    refine forward_runs_end observe hforward (.begun hentered hroom) ?_
    -- what is left to a call that begins is less than what is left to one that is about to
    have hless : Frame.budget (home.reach + 2) (m.stack.limit - m.stack.depth) [frame] <
        Frame.budget (home.reach + 2) (m.stack.limit - m.stack.depth) [] := by
      refine Frame.budget_entered ?_ ?_
      · show frame.method.reach - frame.pc + 1 < home.reach + 2
        omega
      · rw [List.length_nil]
        omega
    exact Nat.le_of_lt hless
  · exact ⟨.error t, m, s, hrefused _ s⟩

end

end Machine

namespace Sample

/-- A method that calls itself whatever happens, and catches what comes of it. -/
def diving : Module :=
  { cache := 0
    classRefs := #[]
    methods := #[
      { Demo.method "dive" "()V" 0 0 [.invoke 0 0 0, .returnVoid]
          [{ first := 0, limit := 3, handler := 3, kind := none }] with id := .ofIndex 1 }] }

/-- A machine with room for three frames. -/
def shallow : Machine := { stack := .empty 3, store := { heap := .empty { limit := 0 } } }

end Sample

/-- Calls that run out of frames. -/
theorem Machine.forward_calls_end_diving :
    Sample.diving.ForwardOnly ∧ Sample.diving.reach = 4 ∧
      ∃ value m' es, Sample.shallow.invokeFor report (6 ^ 3) Sample.diving 0 [] [] =
        .ended value m' es := by
  have hforward : Sample.diving.ForwardOnly := by decide
  exact ⟨hforward, rfl, forward_calls_end report hforward Sample.shallow 0 [] []⟩

end TracedMachine
