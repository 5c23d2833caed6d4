import TracedMachine.Proofs.Heap.Lifetime
import TracedMachine.Proofs.Machine.Memory
import TracedMachine.Proofs.Machine.Turn
import TracedMachine.Proofs.Watched.Machine

/-!
# Proofs — Machine — Thrown

What a throwable does, from the instruction that throws it to the frame that catches it.

**Throwing** (`Machine.throwing_changes_nothing`).  An instruction that throws leaves the stack as
it was: every frame with its address and its registers, the result of the last call, and what is
pending.  It leaves every object, too, except released ones that it has collected, and those are
gone.  Only one instruction has to be looked at for that, since the others are planned before
anything is changed, and the handlers that read, write and check in turn come to what is planned
(`Work.run_execute`).  One that makes an array may fail after it has made room, and even after it
has made the array, if there is no register to put it in (`Machine.step_error`).

**Catching** (`Machine.unwinding_finds_handler`).  The frames above a given depth are left from the
innermost on, one event for each, as long as no entry of their catch table covers where they stand.
The first frame with such an entry goes on at the handler of the first one, in the order of the
table; without such a frame the throwable leaves the call (`Machine.Unwinds`).
-/

namespace TracedMachine

/-! ### Catch tables -/

/-- The entry covers an address for a kind: the address is in its range, and it catches this kind or
every kind. -/
def CatchEntry.Covers (e : CatchEntry) (pc : Nat) (kind : ThrowableKind) : Prop :=
  e.first ≤ pc ∧ pc < e.limit ∧ (e.kind = none ∨ e.kind = some kind)

theorem CatchEntry.covers_iff {e : CatchEntry} {pc : Nat} {kind : ThrowableKind} :
    e.covers pc kind = true ↔ e.Covers pc kind := by
  cases hkind : e.kind with
  | none => simp [covers, Covers, hkind]
  | some k => simp [covers, Covers, hkind, and_assoc]

namespace Method

/-- Of the entries of a method that cover an address for a kind, this one stands first. -/
def FirstCovering (m : Method) (pc : Nat) (kind : ThrowableKind) (e : CatchEntry) : Prop :=
  e.Covers pc kind ∧ ∃ earlier later, m.catches = earlier ++ e :: later ∧
    ∀ x ∈ earlier, ¬ x.Covers pc kind

variable {m : Method} {pc : Nat} {kind : ThrowableKind}

theorem handler?_eq_none_iff :
    m.handler? pc kind = none ↔ ∀ e ∈ m.catches, ¬ e.Covers pc kind := by
  rw [handler?, Option.map_eq_none_iff, List.find?_eq_none]
  simp only [CatchEntry.covers_iff]

/-- The handler is that of the first entry that covers the address. -/
theorem firstCovering_of_handler? {handler : Nat} (h : m.handler? pc kind = some handler) :
    ∃ e, m.FirstCovering pc kind e ∧ e.handler = handler := by
  obtain ⟨e, he, rfl⟩ := Option.map_eq_some_iff.mp h
  obtain ⟨hcovers, earlier, later, hcatches, hearlier⟩ := List.find?_eq_some_iff_append.mp he
  refine ⟨e, ⟨CatchEntry.covers_iff.mp hcovers, earlier, later, hcatches, fun x hx => ?_⟩, rfl⟩
  rw [← CatchEntry.covers_iff]
  simpa using hearlier x hx

end Method

namespace Frame

/-- No entry of the catch table covers where the frame stands. -/
def Uncovered (f : Frame) (kind : ThrowableKind) : Prop :=
  ∀ e ∈ f.method.catches, ¬ e.Covers f.pc kind

/-- What is reported of a frame that a throwable leaves. -/
def unwound (f : Frame) : Event := .method f.method.id .unwind

end Frame

/-! ### Looking for a handler -/

namespace Machine

variable {m : Machine} {base : Nat} {t : Throwable} {es : List Event} {f : Frame}
  {rest : List Frame}

/-- There is no frame above `base`. -/
theorem handle_done (h : m.stack.depth ≤ base) : m.handle base t es = .ended (.error t) m es := by
  have hnone : m.stack.unwind t base = ⟨m.stack, false, []⟩ := by
    rw [Stack.unwind, Nat.sub_eq_zero_of_le h]
    rfl
  rw [handle, hnone]
  exact congrArg (Turn.ended (.error t) m) (List.append_nil es)

/-- The number of frames to look at, one of which is the innermost. -/
theorem depth_sub_eq (hf : m.stack.frames = f :: rest) (hbase : base ≤ rest.length) :
    m.stack.depth - base = rest.length - base + 1 := by
  rw [m.stack.depth_eq, hf, List.length_cons]
  omega

/-- The innermost frame has a handler. -/
theorem handle_caught {handler : Nat} (hf : m.stack.frames = f :: rest)
    (hbase : base ≤ rest.length) (h : f.method.handler? f.pc t.kind = some handler) :
    m.handle base t es =
      .goesOn
        { m with
          stack := { m.stack.modifyTop fun f => { f with pc := handler } with pending := some t } }
        (es ++ [.notice (.caught t f.method.name f.pc)]) := by
  rw [handle, Stack.unwind, depth_sub_eq hf hbase, Stack.unwindTop_caught hf h]
  rfl

/-- The innermost frame has none and is left, and the frames below it are looked at. -/
theorem handle_left (hf : m.stack.frames = f :: rest) (hbase : base ≤ rest.length)
    (h : f.method.handler? f.pc t.kind = none) :
    m.handle base t es = { m with stack := m.stack.pop }.handle base t (es ++ [f.unwound]) := by
  have hpop : m.stack.pop.depth - base = rest.length - base := by
    rw [m.stack.pop.depth_eq]
    show m.stack.frames.tail.length - base = _
    rw [hf, List.tail_cons]
  unfold handle Stack.unwind
  rw [depth_sub_eq hf hbase, Stack.unwindTop_left hf h, hpop]
  dsimp only
  rw [List.append_assoc]
  rfl

/-- **What becomes of a throwable** in the frames above `base`, which are those with at least `base`
frames below them.  The frames in `left` are the topmost ones without a handler for it, as many as
there are: the next frame has one, or is not above `base`. -/
inductive Unwinds (m : Machine) (base : Nat) (t : Throwable) (es : List Event) : Turn → Prop where
  /-- A frame above `base` goes on at its handler, and the throwable is pending. -/
  | caught {m' : Machine} {left below : List Frame} {f : Frame} {e : CatchEntry}
      (frames : m.stack.frames = left ++ f :: below) (above : base ≤ below.length)
      (uncovered : ∀ g ∈ left, g.Uncovered t.kind)
      (covering : f.method.FirstCovering f.pc t.kind e)
      (frames' : m'.stack.frames = { f with pc := e.handler } :: below)
      (pending' : m'.stack.pending = some t)
      (kept : m'.stack.result = m.stack.result ∧ m'.stack.limit = m.stack.limit ∧
        m'.store = m.store) :
      Unwinds m base t es
        (.goesOn m' (es ++ (left.map Frame.unwound ++
          [.notice (.caught t f.method.name f.pc)])))
  /-- No frame above `base` has a handler, and the call ends with the throwable. -/
  | escaped {m' : Machine} {left below : List Frame} (frames : m.stack.frames = left ++ below)
      (uncovered : ∀ g ∈ left, g.Uncovered t.kind)
      (frames' : m'.stack.frames = below) (depth' : m'.stack.depth = min m.stack.depth base)
      (pending' : m'.stack.pending = m.stack.pending)
      (kept : m'.stack.result = m.stack.result ∧ m'.stack.limit = m.stack.limit ∧
        m'.store = m.store) :
      Unwinds m base t es (.ended (.error t) m' (es ++ left.map Frame.unwound))

/-- A frame that is left stands above those that the search leaves below it. -/
theorem Unwinds.left {turn : Turn} (hf : m.stack.frames = f :: rest) (hbase : base ≤ rest.length)
    (huncovered : f.Uncovered t.kind)
    (h : Unwinds { m with stack := m.stack.pop } base t (es ++ [f.unwound]) turn) :
    m.Unwinds base t es turn := by
  have hpop : m.stack.pop.frames = rest := congrArg List.tail hf
  have hdepth : min m.stack.pop.depth base = min m.stack.depth base := by
    rw [m.stack.pop.depth_eq, hpop, m.stack.depth_eq, hf, List.length_cons]
    omega
  cases h with
  | @caught m' left below g e frames above uncovered covering frames' pending' kept =>
      have hframes : m.stack.frames = (f :: left) ++ g :: below := by
        rw [hf, ← hpop, List.cons_append]
        exact congrArg (f :: ·) frames
      rw [List.append_assoc]
      exact .caught hframes above (List.forall_mem_cons.mpr ⟨huncovered, uncovered⟩) covering
        frames' pending' kept
  | @escaped m' left below frames uncovered frames' depth' pending' kept =>
      have hframes : m.stack.frames = (f :: left) ++ below := by
        rw [hf, ← hpop, List.cons_append]
        exact congrArg (f :: ·) frames
      rw [List.append_assoc]
      exact .escaped hframes (List.forall_mem_cons.mpr ⟨huncovered, uncovered⟩) frames'
        (depth'.trans hdepth) pending' kept

/-- Without a frame above `base` the throwable escapes at once. -/
theorem unwinds_done (h : m.stack.depth ≤ base) : m.Unwinds base t es (m.handle base t es) := by
  have hescaped : m.Unwinds base t es (.ended (.error t) m (es ++ [])) :=
    .escaped (List.nil_append _).symm (List.forall_mem_nil _) rfl (Nat.min_eq_left h).symm rfl
      ⟨rfl, rfl, rfl⟩
  rwa [List.append_nil, ← handle_done h] at hescaped

/-- The innermost frame is above `base` and has a handler. -/
theorem unwinds_caught {handler : Nat} (hf : m.stack.frames = f :: rest)
    (hbase : base ≤ rest.length) (h : f.method.handler? f.pc t.kind = some handler) :
    m.Unwinds base t es (m.handle base t es) := by
  obtain ⟨e, hcovering, rfl⟩ := Method.firstCovering_of_handler? h
  rw [handle_caught hf hbase h]
  refine .caught (hf.trans (List.nil_append _).symm) hbase (List.forall_mem_nil _) hcovering ?_ rfl
    ⟨m.stack.result_modifyTop _, m.stack.limit_modifyTop _, rfl⟩
  show (m.stack.modifyTop _).frames = _
  rw [Stack.frames_modifyTop, hf, List.modifyHead_cons]

/-- **Unwinding finds the right handler**, for every stack, depth and throwable. -/
theorem unwinding_finds_handler (m : Machine) (base : Nat) (t : Throwable) (es : List Event) :
    m.Unwinds base t es (m.handle base t es) := by
  induction hframes : m.stack.frames generalizing m es with
  | nil =>
      refine unwinds_done ?_
      rw [m.stack.depth_eq, hframes]
      exact Nat.zero_le base
  | cons f rest ih =>
      by_cases hbase : base ≤ rest.length
      · cases hhandler : f.method.handler? f.pc t.kind with
        | some handler => exact unwinds_caught hframes hbase hhandler
        | none =>
            have hbelow := ih { m with stack := m.stack.pop } (es ++ [f.unwound])
              (congrArg List.tail hframes)
            rw [handle_left hframes hbase hhandler]
            exact .left hframes hbase (Method.handler?_eq_none_iff.mp hhandler) hbelow
      · refine unwinds_done ?_
        rw [m.stack.depth_eq, hframes, List.length_cons]
        exact Nat.lt_of_not_le hbase

end Machine

/-! ### Instructions that throw -/

/-- Making an array asks nothing of the heap and leaves it as it was, or asks it for an array and
shows what the heap reports of that. -/
theorem Store.heap_newArray (s : Store) (f : Frame) (dst : UInt8) (length : Int32)
    (classIndex : UInt16) :
    let out := s.newArray f dst length classIndex
    (s.newArrayOp? f length classIndex = none ∧ out.state.heap = s.heap) ∨
      ∃ cls count, s.newArrayOp? f length classIndex = some (.allocateArray cls count false) ∧
        let made := (HeapOp.allocateArray cls count false).perform s.heap
        out.state.heap = made.state ∧ made.events ⊆ out.events := by
  have hfound := s.heap_resolveClass f.home classIndex.toNat
  unfold newArray newArrayOp?
  by_cases hneg : length.toInt < 0
  · rw [if_pos hneg, if_pos hneg]
    exact .inl ⟨rfl, rfl⟩
  · rw [if_neg hneg, if_neg hneg]
    dsimp only
    cases (s.resolveClass f.home classIndex.toNat).value with
    | error e => exact .inl ⟨rfl, hfound⟩
    | ok c =>
        refine .inr ⟨c, length.toInt.toNat, rfl, ?_⟩
        rw [← hfound]
        exact ⟨rfl, List.subset_append_right _ _⟩

/-- Storing an element collects nothing. -/
theorem HeapOp.not_collects_put (r : ObjectRef) (index : Int32) (w : Word) (h : Heap) :
    ¬ (HeapOp.put r index w).collects h := by
  unfold collects perform
  dsimp only
  split <;> exact List.not_mem_nil

/-- An instruction that makes no array asks for no collection. -/
theorem Frame.not_collects_heapOp? (f : Frame) (s : Store) {i : Instruction}
    (hnew : ∀ dst length classIndex, i ≠ .newArray dst length classIndex) {op : HeapOp}
    (hop : f.heapOp? s i = some op) (h : Heap) : ¬ op.collects h := by
  unfold heapOp? at hop
  split at hop
  · next dst length classIndex => exact absurd rfl (hnew dst length classIndex)
  · split at hop
    · cases hop
      exact HeapOp.not_collects_put _ _ _ h
    · cases hop
  · cases hop

namespace Machine

variable {m : Machine} {t : Throwable}

/-- **What a step can come to that throws**: the stack is as it was, and so is the heap, unless the
step has asked it for an array. -/
theorem step_error (h : m.step.value = .error t) :
    m.step.state.stack = m.stack ∧
      ((m.step.state.store.heap = m.store.heap ∧
          ∀ op, m.heapOp? = some op → ¬ op.collects m.store.heap) ∨
        ∃ cls count, m.heapOp? = some (.allocateArray cls count false) ∧
          let made := (HeapOp.allocateArray cls count false).perform m.store.heap
          m.step.state.store.heap = made.state ∧ made.events ⊆ m.step.events) := by
  refine ⟨stack_thrown h, ?_⟩
  unfold heapOp?
  cases hf : m.stack.frames with
  | nil =>
      left
      simp only [step, hf]
      exact ⟨trivial, fun op hop => by cases hop⟩
  | cons f rest =>
      rw [step_eq hf] at h ⊢
      dsimp only
      cases hi : decodeAt f.method.code f.pc with
      | error e => exact .inl ⟨rfl, fun op hop => by cases hop⟩
      | ok i =>
          simp only [hi] at h ⊢
          unfold execute at h ⊢
          split at h
          · next dst length classIndex =>
            unfold Frame.heapOp?
            dsimp only
            cases f.registers.getInt length.toNat with
            | error e => exact .inl ⟨rfl, fun op hop => by cases hop⟩
            | ok n =>
                have hmade := m.store.heap_newArray f dst n classIndex
                dsimp only
                rw [newArray_eq, store_receive]
                obtain ⟨hnone, hsame⟩ | ⟨cls, count, hop, hheap, hshown⟩ := hmade
                · rw [hnone]
                  exact .inl ⟨hsame, fun op hop => by cases hop⟩
                · refine .inr ⟨cls, count, hop, hheap, ?_⟩
                  exact fun e he => .tail _ (.tail _ (.tail _ (hshown he)))
          · next hnew =>
            -- what is planned is not done if the plan fails
            cases hp : f.plan m.store.heap m.stack.result m.stack.pending i with
            | error e =>
                exact .inl ⟨rfl, fun op hop => f.not_collects_heapOp? m.store hnew hop _⟩
            | ok p =>
                simp only [hp] at h
                cases h

/-- What becomes of an object in a step that throws. -/
theorem object?_thrown (reached : m.store.heap.Reachable) (thrown : m.step.value = .error t)
    {r : ObjectRef} {o : HeapObject} (ho : m.store.heap.object? r = some o) :
    Heap.LivesThrough r m.store.heap m.heapOp?.toList ∧
        m.step.state.store.heap.object? r = some o ∨
      ¬ Heap.LivesThrough r m.store.heap m.heapOp?.toList ∧
        .passBegan .collection ∈ m.step.events ∧ r ∈ m.store.heap.garbage := by
  have hhere : (m.store.heap.object? r).isSome := by rw [ho]; rfl
  have hafter : m.step.state.store.heap = m.store.heap.after m.heapOp?.toList :=
    m.does_step.after_eq
  rcases (step_error thrown).2 with ⟨hsame, hquiet⟩ | ⟨cls, count, hop, hmade, hshown⟩
  · refine .inl ⟨?_, hsame ▸ ho⟩
    cases hop : m.heapOp? with
    | none => exact Heap.livesThrough_nil.mpr hhere
    | some op =>
        rw [hop, hsame] at hafter
        have hstays : (op.perform m.store.heap).state = m.store.heap := hafter.symm
        refine Heap.livesThrough_cons.mpr ⟨hhere, fun hc => absurd hc (hquiet op hop), ?_⟩
        rwa [hstays, Heap.livesThrough_nil]
  · have hfree : HeapOp.allocateArray cls count false ≠ .free r := HeapOp.noConfusion
    have hlives : Heap.LivesThrough r m.store.heap m.heapOp?.toList ↔
        ¬ ((HeapOp.allocateArray cls count false).collects m.store.heap ∧
          r ∈ m.store.heap.garbage) := by
      rw [hop, Option.toList_some, Heap.livesThrough_cons, Heap.livesThrough_nil,
        and_iff_right hhere, Heap.perform_keeps_iff reached.wellFormed hhere, and_iff_right hfree]
    have hkept := Heap.object?_kept reached.wellFormed ho hfree fun _ _ => HeapOp.noConfusion
    rw [hlives, hmade]
    by_cases hgone : (HeapOp.allocateArray cls count false).collects m.store.heap ∧
        r ∈ m.store.heap.garbage
    · exact .inr ⟨not_not.mpr hgone, hshown hgone.1, hgone.2⟩
    · exact .inl ⟨hgone, hkept.resolve_right hgone⟩

/-- **Throwing changes nothing.**  A step that throws leaves the stack: all frames with their
addresses and registers, the result of the last call, and what is pending.  So does the step whose
handlers read and write as they go.  An object that was there lives through all that the step does
to the heap and has the same elements, unless it had been released, and the step has collected it
and it is gone. -/
theorem throwing_changes_nothing (reached : m.store.heap.Reachable)
    (thrown : m.step.value = .error t) :
    m.step.state.stack = m.stack ∧
      (∀ o, ∃ o', Work.step.run ⟨m, o⟩ = .error t ⟨m.step.state, o'⟩) ∧
      m.step.state.store.heap = m.store.heap.after m.heapOp?.toList ∧
      ∀ r o, m.store.heap.object? r = some o →
        Heap.LivesThrough r m.store.heap m.heapOp?.toList ∧
            m.step.state.store.heap.object? r = some o ∨
          ¬ Heap.LivesThrough r m.store.heap m.heapOp?.toList ∧
            .passBegan .collection ∈ m.step.events ∧ r ∈ m.store.heap.garbage := by
  refine ⟨(step_error thrown).1, fun o => ?_, m.does_step.after_eq,
    fun r o ho => object?_thrown reached thrown ho⟩
  refine ⟨m.step.events.foldl Observers.observe o, ?_⟩
  rw [Work.run_step, Outcome.result, thrown]
  rfl

end Machine

namespace Sample

/-- The second array of a heap. -/
def second : ObjectRef := ⟨1, one_lt_slotLimit⟩

/-- A full heap: the first of its two arrays holds a five and has been released, and the second
holds a seven. -/
def fullHeap : Heap :=
  let numbers : Class := { descriptor := "[I", kind := .array .int, initialized := true }
  (Heap.empty { limit := 50 }).after
    [.allocateArray numbers 1 true, .allocateArray numbers 1 true, .put ⟨0, slotLimit_pos⟩ 0 5,
      .put second 0 7, .release ⟨0, slotLimit_pos⟩]

/-- A machine about to make an array for a register that its frame does not have. -/
def spilling : Machine :=
  let home : Module := { cache := 0, classRefs := #["[I"], methods := #[] }
  let spill : Method := { Demo.method "spill" "()V" 1 0 [.newArray 9 0 0] [] with id := ⟨4⟩ }
  { stack := { frames := [{ home, method := spill, pc := 0, registers := ⟨#[1]⟩ }], limit := 8 }
    store := { heap := fullHeap } }

end Sample

/-- The released array is collected and a new one takes its slot before the instruction throws; the
array that is still there holds what it held. -/
theorem Machine.throwing_changes_nothing_spilling :
    let m := Sample.spilling
    m.store.heap.Reachable ∧ m.step.value = .error (.verify (.registerOutOfRange 9 1)) ∧
      .passBegan .collection ∈ m.step.events ∧ m.step.state.store.heap ≠ m.store.heap ∧
      m.step.state.stack = m.stack ∧
      m.step.state.store.heap.object? Sample.second = m.store.heap.object? Sample.second ∧
      ¬ Heap.LivesThrough ⟨0, slotLimit_pos⟩ m.store.heap m.heapOp?.toList := by
  intro m
  have hreached : m.store.heap.Reachable := (Heap.Reachable.empty _).after _
  have hthrown : m.step.value = .error (.verify (.registerOutOfRange 9 1)) := rfl
  obtain ⟨hstack, -, -, hkept⟩ := throwing_changes_nothing hreached hthrown
  refine ⟨hreached, hthrown, by decide +kernel, by decide +kernel, hstack, ?_, ?_⟩
  · rcases hkept Sample.second _ rfl with ⟨-, hkept⟩ | ⟨-, -, hgarbage⟩
    · exact hkept
    · exact absurd hgarbage (by decide +kernel)
  · -- an array stands in the slot, but not the one that was released
    rcases hkept ⟨0, slotLimit_pos⟩ _ rfl with ⟨-, hkept⟩ | ⟨hgone, -⟩
    · exact absurd hkept (by decide +kernel)
    · exact hgone

end TracedMachine
