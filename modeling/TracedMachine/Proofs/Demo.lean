import TracedMachine.Assembler
import TracedMachine.Proofs.Heap.Allocation
import TracedMachine.Proofs.Heap.Balance
import TracedMachine.Proofs.Heap.Contents
import TracedMachine.Proofs.Machine.Reach
import TracedMachine.Proofs.Machine.Thrown
import TracedMachine.Proofs.Vm.Shares
import Mathlib.Algebra.Group.Nat.Defs
import Mathlib.Tactic.Ring

/-!
# Proofs — Demo

What the workload computes, for every argument and every limit of the heap.

`run(n)` makes arrays of `n`, `n - 1` and so on numbers (`Demo.arraySizes`), and none of them is
ever removed or released, so the heap only fills up (`Heap.Fills`).  The stretches of code between
the calls are followed turn by turn (`Demo.run_begins` to `Demo.run_returns`); a call of `fill`
either comes back with the length of its array (`Demo.fill_fits`) or throws through `run`
(`Demo.fill_spills`).  The invariant of the loop is `Demo.AtHead`: a round keeps it
(`AtHead.round`), or its array does not fit and the call is over (`AtHead.spill`).  By induction on
the number of rounds that are left, all of them are made (`AtHead.rounds`), or those up to the first
array that does not fit (`AtHead.rounds_spill`).

**The workload adds up** (`Demo.workload_computes_sum`): the two cases on a fresh machine, with what
the thread's counters have counted and what is left in the heap.
-/

namespace TracedMachine

/-! ### Sizes -/

namespace Demo

/-- The bytes charged for an array of so many numbers. -/
def arraySize (length : Nat) : Nat := 16 + 4 * length

/-- The sizes of the arrays that `run(n)` makes, in order. -/
def arraySizes : Nat → List Nat
  | 0 => []
  | n + 1 => arraySize (n + 1) :: arraySizes n

theorem length_arraySizes (n : Nat) : (arraySizes n).length = n := by
  induction n with
  | zero => rfl
  | succ n ih => rw [arraySizes, List.length_cons, ih]

theorem sum_arraySizes (n : Nat) : (arraySizes n).sum = 16 * n + 2 * n * (n + 1) := by
  induction n with
  | zero => rfl
  | succ n ih =>
      rw [arraySizes, List.sum_cons, ih, arraySize]
      ring

theorem sum_concat (sizes : List Nat) (size : Nat) :
    (sizes ++ [size]).sum = sizes.sum + size := by
  rw [List.sum_append, List.sum_singleton]

end Demo

/-! ### A heap that fills up -/

/-- Objects of these sizes were put into the heap one after the other, and none of them was removed
or released. -/
structure Heap.Fills (h : Heap) (limit : Nat) (sizes : List Nat) (collections : UInt64) : Prop where
  header : h.settings.headerSize = 16
  limit_eq : h.settings.limit = limit
  free : h.free = []
  garbage : h.garbage = #[]
  size : h.objects.size = sizes.length
  used : h.used = sizes.sum
  within : sizes.sum ≤ limit
  collections_eq : h.collections = collections

namespace Heap.Fills

open Demo (arraySize sum_concat)

variable {h : Heap} {limit length : Nat} {sizes : List Nat} {collections : UInt64}

theorem slotFor?_eq (hfills : h.Fills limit sizes collections) (few : sizes.length < slotLimit)
    (size : Nat) :
    h.slotFor? size = if limit < sizes.sum + size then none else some ⟨sizes.length, few⟩ := by
  simp only [Heap.slotFor?, Heap.nextSlot?, hfills.limit_eq, hfills.used, hfills.free,
    ObjectRef.ofSlot?, hfills.size, dif_pos few]

/-- A collection finds nothing to remove. -/
theorem collect (hfills : h.Fills limit sizes collections) :
    h.collect.state.Fills limit sizes (collections + 1) ∧
      allocEvents h.collect.events = [.collected] := by
  have hnone : { h with garbage := #[] }.reclaim h.garbage.toList =
      ([], { h with garbage := #[] }) := by
    rw [hfills.garbage]
    rfl
  rw [allocEvents_collect]
  unfold Heap.collect
  rw [hnone]
  refine ⟨?_, rfl⟩
  exact { hfills with garbage := rfl, collections_eq := congrArg (· + 1) hfills.collections_eq }

theorem charge_eq (hfills : h.Fills limit sizes collections) (hlength : length < 2 ^ 31) :
    addSize h.settings.headerSize (mulSize length 4) = arraySize length := by
  rw [hfills.header, addSize, mulSize, maxSize, arraySize]
  omega

/-- An array that fits is put into the next slot. -/
theorem allocateArray_fits (hfills : h.Fills limit sizes collections)
    (few : sizes.length < slotLimit) (hlength : length < 2 ^ 31)
    (fits : sizes.sum + arraySize length ≤ limit) :
    ∃ r h', h.allocateArray .numbers length false =
        ⟨.ok r, h', [.alloc (.allocated (arraySize length))]⟩ ∧
      h'.Fills limit (sizes ++ [arraySize length]) collections ∧
      h'.object? r =
        some { cls := .numbers, slots := Array.replicate length 0, size := arraySize length } := by
  let r : ObjectRef := ⟨sizes.length, few⟩
  have hslot : h.slotFor? (arraySize length) = some r := by
    rw [hfills.slotFor?_eq few, if_neg (Nat.not_lt.mpr fits)]
  have hnew : ¬ r.slot < h.objects.size := Nat.not_lt.mpr (Nat.le_of_eq hfills.size)
  refine ⟨r, h.place r .numbers length (arraySize length) false, ?_, ?_, ?_⟩
  · show h.allocate .numbers length (mulSize length 4) false = _
    simp only [Heap.allocate, hfills.charge_eq hlength, hslot]
  · have hobjects : (h.place r .numbers length (arraySize length) false).objects =
        h.objects.push (some ⟨.numbers, Array.replicate length 0, arraySize length⟩) := if_neg hnew
    exact
      { header := hfills.header
        limit_eq := hfills.limit_eq
        free := by simp only [Heap.place, hfills.free, List.tail_nil]
        garbage := hfills.garbage
        size := by rw [hobjects, Array.size_push, hfills.size, List.length_append]; rfl
        used := by rw [sum_concat]; exact congrArg (· + arraySize length) hfills.used
        within := by rwa [sum_concat]
        collections_eq := hfills.collections_eq }
  · rw [object?_place (Nat.le_of_eq hfills.size.symm), if_pos rfl]

/-- An array that does not fit is tried again after a collection, and does not fit then either. -/
theorem allocateArray_full (hfills : h.Fills limit sizes collections)
    (few : sizes.length < slotLimit) (hlength : length < 2 ^ 31)
    (full : limit < sizes.sum + arraySize length) :
    ∃ h' es, h.allocateArray .numbers length false =
        ⟨.error (.outOfMemory (arraySize length)), h', es⟩ ∧
      h'.Fills limit sizes (collections + 1) ∧
      allocEvents es = [.collected, .failed (arraySize length)] := by
  obtain ⟨hcollected, hevents⟩ := hfills.collect
  have hslot : h.slotFor? (arraySize length) = none := by
    rw [hfills.slotFor?_eq few, if_pos full]
  have hagain : h.collect.state.slotFor? (arraySize length) = none := by
    rw [hcollected.slotFor?_eq few, if_pos full]
  refine ⟨h.collect.state, h.collect.events ++ [.alloc (.failed (arraySize length)),
    .notice (.outOfMemory (arraySize length) Class.numbers.descriptor)], ?_, hcollected, ?_⟩
  · show h.allocate .numbers length (mulSize length 4) false = _
    simp only [Heap.allocate, hfills.charge_eq hlength, hslot, hagain]
  · rw [allocEvents_append, hevents]
    rfl

theorem store (hfills : h.Fills limit sizes collections) (r : ObjectRef) (index : Nat) (w : Word) :
    (h.store r index w).Fills limit sizes collections :=
  { hfills with size := Array.size_modify.trans hfills.size }

end Heap.Fills

namespace Demo

open Machine

/-! ### Branches -/

/-- The code of `run`, its branches by name. -/
def runLines : List AssemblyLine :=
  [ .emit (.const 0 0) 1,
    .emit (.const 1 (-1)) 1,
    .mark "top",
    .ifZero 3 "done",
    .emit (.invoke 1 1 3) 1,
    .emit (.moveResult 2) 1,
    .emit (.addInt 0 0 2) 1,
    .emit (.addInt 3 3 1) 1,
    .gotoMark "top",
    .bind "done",
    .emit (.invoke 0 2 0) 1,
    .emit (.returnValue 0) 1 ]

/-- The distances in `run` are those from the branches to their targets. -/
theorem assemble_runLines : (assemble runLines).toOption = some run.code := by decide +kernel

/-! ### Machines that run the workload -/

/-- A number as a word. -/
def number (n : Nat) : Word := .ofInt32 (.ofNat n)

/-- What is added to the number that counts down. -/
def minusOne : Word := .ofInt32 (-1)

theorem toInt32_number (n : Nat) : (number n).toInt32 = .ofNat n := Word.toInt32_ofInt32 _

/-- The store of a machine with the workload: its class has been resolved, or not yet. -/
def storeWith (resolved : Bool) (heap : Heap) : Store :=
  match resolved with
  | false => { heap, caches := #[.empty 1] }
  | true => { heap, classes := ⟨[.numbers]⟩, caches := #[⟨#[some .numbers]⟩] }

theorem heap_storeWith (resolved : Bool) (heap : Heap) : (storeWith resolved heap).heap = heap := by
  cases resolved <;> rfl

theorem resolveClass_storeWith (resolved : Bool) (heap : Heap) :
    ∃ es, (storeWith resolved heap).resolveClass home 0 = ⟨.ok .numbers, storeWith true heap, es⟩ ∧
      allocEvents es = [] := by
  cases resolved with
  | false => exact ⟨_, rfl, rfl⟩
  | true => exact ⟨_, rfl, rfl⟩

/-- A frame of a method of the workload. -/
def frame (d : MethodDef) (index : UInt32) (pc : Nat) (words : List Word) : Frame :=
  { home, method := { d with id := .ofIndex index }, pc, registers := ⟨words.toArray⟩ }

/-- A frame of `run`. -/
def runAt (pc : Nat) (sum step answer count : Word) : Frame :=
  frame run 1 pc [sum, step, answer, count]

/-- A frame of `fill`. -/
def fillAt (pc : Nat) (array length index size : Word) : Frame :=
  frame fill 2 pc [array, length, index, size]

/-- A frame of `probe`. -/
def probeAt (pc : Nat) (caught : Word) : Frame := frame probe 3 pc [caught]

/-- A frame of `explode`. -/
def explodeAt (pc : Nat) (size : Word) : Frame := frame explode 4 pc [size]

/-- A machine that runs the workload and nothing else. -/
def machine (frames : List Frame) (result : Word) (pending : Option Throwable) (store : Store) :
    Machine :=
  ⟨{ frames, result, pending, limit := Stack.usualLimit }, store⟩

section

variable {d : MethodDef} {index : UInt32} {pc : Nat} {words : List Word} {below : List Frame}
  {result : Word} {pending : Option Throwable} {store : Store} {m' : Machine} {es : List Event}

/-- A turn of the workload, by the instruction at the address. -/
theorem quietly (i : Instruction) (hi : decodeAt d.code pc = .ok i)
    (goes : (machine (frame d index pc words :: below) result pending store).turnOf 0
      (frame d index pc words) i = .goesOn m' es) (hes : allocEvents es = []) :
    Quietly 0 (machine (frame d index pc words :: below) result pending store) m' :=
  Reaches.one ((advance_eq rfl hi).trans goes) hes

/-- The same, by what the instruction was planned to do. -/
theorem quietly_planned {p : Plan} (i : Instruction) (hi : decodeAt d.code pc = .ok i)
    (hnew : ∀ dst length classIndex, i ≠ .newArray dst length classIndex)
    (hp : (frame d index pc words).plan store.heap result pending i = .ok p)
    (goes : ((machine (frame d index pc words :: below) result pending store).apply
      p.change).follow 0 [.instruction i.opcode, .notice (.executing d.name pc i)] p.control =
        .goesOn m' es) (hes : allocEvents es = []) :
    Quietly 0 (machine (frame d index pc words :: below) result pending store) m' :=
  quietly i hi ((turnOf_planned hnew hp).trans goes) hes

end

/-! ### Adding up -/

section

variable (sum step answer count result : Word) (store : Store)

/-- The sum is zero at first. -/
theorem run_begins :
    Quietly 0 (machine [runAt 0 sum step answer count] result none store)
      (machine [runAt 6 (number 0) minusOne answer count] result none store) :=
  calc Quietly 0 (machine [runAt 0 sum step answer count] result none store)
        (machine [runAt 3 (number 0) step answer count] result none store) :=
        quietly (.const 0 0) (by decide) rfl rfl
    Quietly 0 _ (machine [runAt 6 (number 0) minusOne answer count] result none store) :=
        quietly (.const 1 (-1)) (by decide) rfl rfl

/-- While the number that counts down is not zero, `fill` is called with it. -/
theorem run_calls (hcount : count.toInt32 ≠ 0) :
    Quietly 0 (machine [runAt 6 sum step answer count] result none store)
      (machine [fillAt 0 0 0 0 count, runAt 8 sum step answer count] result none store) :=
  calc Quietly 0 (machine [runAt 6 sum step answer count] result none store)
        (machine [runAt 8 sum step answer count] result none store) :=
        quietly_planned (.ifZero 3 11) (by decide) (fun _ _ _ => Instruction.noConfusion)
          (Frame.plan_ifZero_ne rfl hcount 11) rfl rfl
    Quietly 0 _ (machine [fillAt 0 0 0 0 count, runAt 8 sum step answer count] result none store) :=
        quietly (.invoke 1 1 3) (by decide) rfl rfl

/-- What `fill` has answered is added to the sum, and the step to the number that counts down. -/
theorem run_adds :
    Quietly 0 (machine [runAt 11 sum step answer count] result none store)
      (machine [runAt 6 (.ofInt32 (sum.toInt32 + result.toInt32)) step result
        (.ofInt32 (count.toInt32 + step.toInt32))] result none store) := by
  let sum' := Word.ofInt32 (sum.toInt32 + result.toInt32)
  let count' := Word.ofInt32 (count.toInt32 + step.toInt32)
  calc Quietly 0 (machine [runAt 11 sum step answer count] result none store)
        (machine [runAt 12 sum step result count] result none store) :=
        quietly (.moveResult 2) (by decide) rfl rfl
    Quietly 0 _ (machine [runAt 14 sum' step result count] result none store) :=
        quietly (.addInt 0 0 2) (by decide) rfl rfl
    Quietly 0 _ (machine [runAt 16 sum' step result count'] result none store) :=
        quietly (.addInt 3 3 1) (by decide) rfl rfl
    Quietly 0 _ (machine [runAt 6 sum' step result count'] result none store) :=
        quietly (.goto (-10)) (by decide) rfl rfl

/-- When the number that counts down is zero, the loop is left. -/
theorem run_leaves (hcount : count.toInt32 = 0) :
    Quietly 0 (machine [runAt 6 sum step answer count] result none store)
      (machine [runAt 17 sum step answer count] result none store) := by
  have hzero : (runAt 6 sum step answer count).registers.getInt 3 = .ok 0 :=
    congrArg Except.ok hcount
  have hplan : (runAt 6 sum step answer count).plan store.heap result none (.ifZero 3 11) =
      .ok ⟨.nothing, .jump 17⟩ := Frame.plan_ifZero_zero hzero rfl
  exact quietly_planned (.ifZero 3 11) (by decide) (fun _ _ _ => Instruction.noConfusion) hplan
    rfl rfl

/-- What `explode` throws is caught in `probe`, which takes it: nothing stays pending. -/
theorem run_probes :
    ∃ kind, Quietly 0 (machine [runAt 17 sum step answer count] result none store)
      (machine [runAt 20 sum step answer count] kind none store) := by
  let thrown := Throwable.negativeArraySize (-1)
  let kind := thrown.kind.code.toUInt64
  let caller := runAt 17 sum step answer count
  refine ⟨kind, ?_⟩
  calc Quietly 0 (machine [caller] result none store)
        (machine [probeAt 0 0, caller] result none store) :=
        quietly (.invoke 0 2 0) (by decide) rfl rfl
    Quietly 0 _ (machine [explodeAt 0 0, probeAt 0 0, caller] result none store) :=
        quietly (.invoke 0 3 0) (by decide) rfl rfl
    Quietly 0 _ (machine [explodeAt 3 minusOne, probeAt 0 0, caller] result none store) :=
        quietly (.const 0 (-1)) (by decide) rfl rfl
    -- the frame of `explode` has no handler and is left; that of `probe` has one
    Quietly 0 _ (machine [probeAt 3 0, caller] result (some thrown) store) :=
        quietly (.newArray 0 0 0) (by decide) rfl rfl
    Quietly 0 _ (machine [probeAt 4 kind, caller] result none store) :=
        quietly (.moveException 0) (by decide) rfl rfl
    Quietly 0 _ (machine [runAt 20 sum step answer count] kind none store) :=
        quietly (.returnValue 0) (by decide) rfl rfl

theorem run_returns :
    Ends 0 (machine [runAt 20 sum step answer count] result none store) [] (.ok sum)
      (machine [] result none store) := by
  have hi : decodeAt run.code 20 = .ok (.returnValue 0) := by decide
  exact .one ((advance_eq rfl hi).trans rfl) rfl

end

/-! ### Filling an array -/

/-- The machine in which `fill` has just been called. -/
def callingFill (size : Word) (caller : Frame) (result : Word) (resolved : Bool) (heap : Heap) :
    Machine :=
  machine [fillAt 0 0 0 0 size, caller] result none (storeWith resolved heap)

section

variable {size result : Word} {limit length : Nat} {sizes : List Nat} {collections : UInt64}
  {heap heap' : Heap} {resolved : Bool} {caller : Frame} {es more : List Event}

theorem advance_callingFill :
    (callingFill size caller result resolved heap).advance 0 =
      (callingFill size caller result resolved heap).turnOf 0 (fillAt 0 0 0 0 size)
        (.newArray 0 3 0) :=
  advance_eq rfl (by decide : decodeAt fill.code 0 = .ok (.newArray 0 3 0))

/-- Making the array is up to the heap. -/
theorem newArray_storeWith (resolved : Bool) {made : Except Throwable ObjectRef}
    (hsize : size.toInt32 = .ofNat length) (hlength : length < 2 ^ 31)
    (hmade : heap.allocateArray .numbers length false = ⟨made, heap', more⟩) :
    ∃ es, (storeWith resolved heap).newArray (fillAt 0 0 0 0 size) 0 size.toInt32 0 =
        ⟨made.map ObjectRef.toWord, storeWith true heap', es ++ more⟩ ∧ allocEvents es = [] := by
  obtain ⟨es, hclass, hes⟩ := resolveClass_storeWith resolved heap
  have hint : size.toInt32.toInt = length := by
    rw [hsize]
    exact Int32.toInt_ofNat_of_lt hlength
  have hmade' : (storeWith true heap).heap.allocateArray .numbers size.toInt32.toInt.toNat false =
      ⟨made, heap', more⟩ := by
    rw [hint]
    exact hmade
  exact ⟨es, Store.newArray_resolved (hint ▸ Int.natCast_nonneg length) hclass hmade' rfl, hes⟩

/-- The array is there: its length goes into its first element, and from there to the caller. -/
theorem fill_answers (size result : Word) (caller : Frame) {r : ObjectRef} {o : HeapObject}
    (ho : heap.object? r = some o) (hcls : o.cls = .numbers) (hpos : 0 < o.slots.size) :
    Quietly 0
      (machine [fillAt 2 r.toWord 0 0 size, caller] result none (storeWith true heap))
      (machine [{ caller with pc := caller.pc + 3 }] (number o.slots.size) none
        (storeWith true (heap.store r 0 (number o.slots.size)))) := by
  let n := o.slots.size
  let heap' := heap.store r 0 (number n)
  have hobject : ∀ pc length index,
      (fillAt pc r.toWord length index size).registers.getObject 0 = .ok r :=
    fun _ _ _ => Registers.getObject_toWord rfl
  have hlength : heap.arrayLength r = .ok n := by
    simp only [Heap.arrayLength, ho, hcls]
    rfl
  have hinside : heap.elementIndex r 0 = .ok 0 := by
    rw [Heap.elementIndex_eq ho, if_pos ⟨Int.le_refl 0, Int.natCast_pos.mpr hpos⟩]
    rfl
  have hget : heap'.arrayGet r 0 = .ok (number n) := by
    have ho' : heap'.object? r = some { o with slots := o.slots.setIfInBounds 0 (number n) } := by
      rw [Heap.object?_store, if_pos rfl, ho]
      rfl
    rw [Heap.arrayGet_eq ho', if_pos]
    · simp [HeapObject.word, hpos]
    · simp [hpos]
  calc Quietly 0 (machine [fillAt 2 r.toWord 0 0 size, caller] result none (storeWith true heap))
        (machine [fillAt 3 r.toWord (number n) 0 size, caller] result none
          (storeWith true heap)) :=
        quietly_planned (.arrayLength 1 0) (by decide) (fun _ _ _ => Instruction.noConfusion)
          (Frame.plan_arrayLength (hobject 2 0 0) hlength rfl) rfl rfl
    Quietly 0 _ (machine [fillAt 6 r.toWord (number n) (number 0) size, caller] result none
          (storeWith true heap)) :=
        quietly (.const 2 0) (by decide) rfl rfl
    Quietly 0 _ (machine [fillAt 8 r.toWord (number n) (number 0) size, caller] result none
          (storeWith true heap')) :=
        quietly_planned (.arrayPut 1 0 2) (by decide) (fun _ _ _ => Instruction.noConfusion)
          (Frame.plan_arrayPut rfl (hobject 6 (number n) (number 0)) rfl hinside) rfl rfl
    Quietly 0 _ (machine [fillAt 10 r.toWord (number n) (number 0) size, caller] result none
          (storeWith true heap')) :=
        quietly_planned (.arrayGet 1 0 2) (by decide) (fun _ _ _ => Instruction.noConfusion)
          (Frame.plan_arrayGet (hobject 8 (number n) (number 0)) rfl hget rfl) rfl rfl
    Quietly 0 _ (machine [{ caller with pc := caller.pc + 3 }] (number n) none
          (storeWith true heap')) :=
        quietly (.returnValue 1) (by decide) rfl rfl

/-- A call of `fill` whose array fits. -/
theorem fill_fits (hsize : size.toInt32 = .ofNat length) (hpos : 0 < length)
    (hlength : length < 2 ^ 31) (hfills : heap.Fills limit sizes collections)
    (few : sizes.length < slotLimit) (fits : sizes.sum + arraySize length ≤ limit) :
    ∃ heap', Reaches 0 (callingFill size caller result resolved heap)
        [.allocated (arraySize length)]
        (machine [{ caller with pc := caller.pc + 3 }] (number length) none
          (storeWith true heap')) ∧
      heap'.Fills limit (sizes ++ [arraySize length]) collections := by
  obtain ⟨r, made, hmade, hmadefills, ho⟩ := hfills.allocateArray_fits few hlength fits
  obtain ⟨es, hstore, hes⟩ := newArray_storeWith resolved hsize hlength hmade
  have hsize' : (fillAt 0 0 0 0 size).registers.getInt 3 = .ok size.toInt32 := rfl
  have hnew : Reaches 0 (callingFill size caller result resolved heap)
      [.allocated (arraySize length)]
      (machine [fillAt 2 r.toWord 0 0 size, caller] result none (storeWith true made)) := by
    refine .one (advance_callingFill.trans (turnOf_newArray hsize' hstore)) ?_
    rw [allocEvents_newArrayEvents, allocEvents_append, hes]
    rfl
  have hanswer := fill_answers size result caller ho rfl (by simpa using hpos)
  rw [Array.size_replicate] at hanswer
  exact ⟨_, hnew.trans hanswer, hmadefills.store r 0 _⟩

/-- A call of `fill` whose array does not fit: neither `fill` nor `run` catches what is thrown. -/
theorem fill_spills (sum step answer count : Word) (hsize : size.toInt32 = .ofNat length)
    (hlength : length < 2 ^ 31) (hfills : heap.Fills limit sizes collections)
    (few : sizes.length < slotLimit) (full : limit < sizes.sum + arraySize length) :
    ∃ heap', Ends 0 (callingFill size (runAt 8 sum step answer count) result resolved heap)
        [.collected, .failed (arraySize length)] (.error (.outOfMemory (arraySize length)))
        (machine [] result none (storeWith true heap')) ∧
      heap'.Fills limit sizes (collections + 1) := by
  obtain ⟨heap', more, hmade, hfills', hmore⟩ := hfills.allocateArray_full few hlength full
  obtain ⟨es, hstore, hes⟩ := newArray_storeWith resolved hsize hlength hmade
  have hsize' : (fillAt 0 0 0 0 size).registers.getInt 3 = .ok size.toInt32 := rfl
  let caller := runAt 8 sum step answer count
  have hthrown : ∀ t es, (callingFill size caller result true heap').handle 0 t es =
      .ended (.error t) (machine [] result none (storeWith true heap'))
        (es ++ [(fillAt 0 0 0 0 size).unwound, caller.unwound]) := fun t es => rfl
  refine ⟨heap', .one (advance_callingFill.trans ((turnOf_newArray_failed hsize' hstore).trans
    (hthrown _ _))) ?_, hfills'⟩
  rw [allocEvents_append, allocEvents_newArrayEvents, allocEvents_append, hes, hmore]
  rfl

end

/-! ### The rounds -/

/-- The machine is at the head of the loop of `run`.  There are `count` rounds left; `sum` is the
sum so far, and arrays of these sizes were made for it.  The count is a number of 32 bits, and there
are references left for the arrays to come. -/
inductive AtHead (limit : Nat) (sizes : List Nat) (sum count : Nat) : Machine → Prop where
  | intro {answer left result : Word} {resolved : Bool} {heap : Heap}
      (hleft : left.toInt32 = .ofNat count) (small : count < 2 ^ 31)
      (few : sizes.length + count < slotLimit) (hfills : heap.Fills limit sizes 0) :
      AtHead limit sizes sum count
        (machine [runAt 6 (number sum) minusOne answer left] result none (storeWith resolved heap))

/-- The call is over.  Arrays of these sizes were made, and nothing is pending. -/
structure AtRest (limit : Nat) (sizes : List Nat) (collections : UInt64) (m : Machine) : Prop where
  frames : m.stack.frames = []
  pending : m.stack.pending = none
  fills : m.store.heap.Fills limit sizes collections

theorem ofNat_succ_ne_zero {k : Nat} (hk : k + 1 < 2 ^ 31) : Int32.ofNat (k + 1) ≠ 0 := by
  intro hzero
  have hint : ((k + 1 : Nat) : Int) = 0 := by
    rw [← Int32.toInt_ofNat_of_lt hk, hzero]
    rfl
  omega

theorem triangle_succ (k : Nat) : (k + 1) * (k + 1 + 1) / 2 = k + 1 + k * (k + 1) / 2 := by
  have h : (k + 1) * (k + 1 + 1) = k * (k + 1) + (k + 1) * 2 := by ring
  rw [h, Nat.add_mul_div_right _ _ (by decide), Nat.add_comm]

namespace AtHead

variable {limit sum k : Nat} {sizes : List Nat} {m : Machine}

theorem within (h : AtHead limit sizes sum k m) : sizes.sum ≤ limit := by
  cases h with
  | intro _ _ _ hfills => exact hfills.within

/-- A round whose array fits adds the number that counts down. -/
theorem round (h : AtHead limit sizes sum (k + 1) m)
    (fits : sizes.sum + arraySize (k + 1) ≤ limit) :
    ∃ m', Reaches 0 m [.allocated (arraySize (k + 1))] m' ∧
      AtHead limit (sizes ++ [arraySize (k + 1)]) (sum + (k + 1)) k m' := by
  obtain @⟨answer, left, result, resolved, heap, hleft, small, few, hfills⟩ := h
  have hcall := run_calls (number sum) minusOne answer left result (storeWith resolved heap)
    (hleft ▸ ofNat_succ_ne_zero small)
  obtain ⟨heap', hfill, hfills'⟩ := fill_fits hleft k.succ_pos small hfills (by omega) fits
  have hadd := run_adds (number sum) minusOne answer left (number (k + 1)) (storeWith true heap')
  have hsum : Word.ofInt32 ((number sum).toInt32 + (number (k + 1)).toInt32) =
      number (sum + (k + 1)) := by
    rw [toInt32_number, toInt32_number, ← Int32.ofNat_add]
    rfl
  have hleft' : (Word.ofInt32 (left.toInt32 + minusOne.toInt32)).toInt32 = .ofNat k := by
    rw [Word.toInt32_ofInt32, minusOne, Word.toInt32_ofInt32, hleft, Int32.ofNat_add,
      Int32.add_assoc]
    exact Int32.add_zero _
  have few' : (sizes ++ [arraySize (k + 1)]).length + k < slotLimit := by
    rw [List.length_append, List.length_singleton, Nat.add_assoc, Nat.add_comm 1 k]
    exact few
  rw [hsum] at hadd
  exact ⟨_, Reaches.trans hcall (hfill.trans hadd), .intro hleft' (by omega) few' hfills'⟩

/-- A round whose array does not fit ends the call. -/
theorem spill (h : AtHead limit sizes sum (k + 1) m)
    (full : limit < sizes.sum + arraySize (k + 1)) :
    ∃ m', Ends 0 m [.collected, .failed (arraySize (k + 1))]
        (.error (.outOfMemory (arraySize (k + 1)))) m' ∧ AtRest limit sizes 1 m' := by
  obtain @⟨answer, left, result, resolved, heap, hleft, small, few, hfills⟩ := h
  have hcall := run_calls (number sum) minusOne answer left result (storeWith resolved heap)
    (hleft ▸ ofNat_succ_ne_zero small)
  obtain ⟨heap', hends, hfills'⟩ :=
    fill_spills (number sum) minusOne answer left hleft small hfills (by omega) full
  exact ⟨_, Reaches.ends hcall hends, rfl, rfl, hfills'⟩

/-- When no rounds are left, `probe` is called and the sum is returned. -/
theorem finish (h : AtHead limit sizes sum 0 m) :
    ∃ m', Ends 0 m [] (.ok (number sum)) m' ∧ AtRest limit sizes 0 m' := by
  obtain @⟨answer, left, result, resolved, heap, hleft, -, -, hfills⟩ := h
  let store := storeWith resolved heap
  have hleave := run_leaves (number sum) minusOne answer left result store hleft
  obtain ⟨kind, hprobe⟩ := run_probes (number sum) minusOne answer left result store
  have hreturn := run_returns (number sum) minusOne answer left kind store
  exact ⟨_, (hleave.trans hprobe).ends hreturn, rfl, rfl,
    (heap_storeWith resolved heap).symm ▸ hfills⟩

/-- **All rounds**, if all arrays fit. -/
theorem rounds (h : AtHead limit sizes sum k m)
    (fits : sizes.sum + (arraySizes k).sum ≤ limit) :
    ∃ m', Ends 0 m ((arraySizes k).map .allocated) (.ok (number (sum + k * (k + 1) / 2))) m' ∧
      AtRest limit (sizes ++ arraySizes k) 0 m' := by
  induction k generalizing sizes sum m with
  | zero =>
      obtain ⟨m', hends, hrest⟩ := h.finish
      exact ⟨m', hends, (List.append_nil sizes).symm ▸ hrest⟩
  | succ k ih =>
      rw [arraySizes, List.sum_cons, ← Nat.add_assoc] at fits
      obtain ⟨m₁, hround, hhead⟩ := h.round (Nat.le_of_add_right_le fits)
      rw [← sum_concat] at fits
      obtain ⟨m', hends, hrest⟩ := ih hhead fits
      rw [List.append_assoc] at hrest
      refine ⟨m', ?_, hrest⟩
      rw [triangle_succ, ← Nat.add_assoc]
      exact hround.ends hends

/-- **The rounds up to the first array that does not fit**, if there is one. -/
theorem rounds_spill (h : AtHead limit sizes sum k m)
    (full : limit < sizes.sum + (arraySizes k).sum) :
    ∃ m' made size later, arraySizes k = made ++ size :: later ∧
      limit < (sizes ++ made).sum + size ∧
      Ends 0 m (made.map .allocated ++ [.collected, .failed size]) (.error (.outOfMemory size)) m' ∧
      AtRest limit (sizes ++ made) 1 m' := by
  induction k generalizing sizes sum m with
  | zero => exact absurd full (Nat.not_lt.mpr h.within)
  | succ k ih =>
      by_cases fits : sizes.sum + arraySize (k + 1) ≤ limit
      · obtain ⟨m₁, hround, hhead⟩ := h.round fits
        rw [arraySizes, List.sum_cons, ← Nat.add_assoc, ← sum_concat] at full
        obtain ⟨m', made, size, later, hsizes, hfull, hends, hrest⟩ := ih hhead full
        rw [List.append_assoc] at hfull hrest
        exact ⟨m', arraySize (k + 1) :: made, size, later, congrArg _ hsizes, hfull,
          hround.ends hends, hrest⟩
      · have full := Nat.not_le.mp fits
        obtain ⟨m', hends, hrest⟩ := h.spill full
        rw [← List.append_nil sizes] at full hrest
        exact ⟨m', [], arraySize (k + 1), arraySizes k, rfl, full, hends, hrest⟩

end AtHead

/-! ### The workload on a fresh machine -/

/-- The workload, and a machine into which it was loaded and nothing else. -/
def loaded (heap : HeapSettings) (settings : ProfilerSettings) (log : Log) : Module × Vm :=
  (Vm.create heap settings log).load workload

/-- The same machine with one thread, whose own counters were started. -/
def freshVm (heap : HeapSettings) (settings : ProfilerSettings) (log : Log) (name : String) : Vm :=
  ((loaded heap settings log).2.attach name Stack.usualLimit).2.changeAlloc 0 AllocCounters.start

/-- What a call leaves.  The thread has no frames and nothing is pending; its own counters have
counted this, and the heap has objects of these sizes. -/
structure Leaves (vm : Vm) (stats : AllocStats) (sizes : List Nat) : Prop where
  stack : ∃ stack, vm.callStacks[0]? = some stack ∧ stack.frames = [] ∧ stack.pending = none
  counted : ∃ thread, vm.threads.get? 0 = some thread ∧ thread.alloc.stats = stats
  objects : vm.store.heap.objectCount = sizes.length
  used : vm.store.heap.used = sizes.sum
  collections : vm.store.heap.collections = stats.collections

section

variable {heap : HeapSettings}

theorem begins_atHead (hheader : heap.headerSize = 16) {n : Nat} (hn : n < 2 ^ 31) :
    ∃ m, Quietly 0 (machine [runAt 0 0 0 0 n.toUInt64] 0 none (storeWith false (.empty heap))) m ∧
      AtHead heap.limit [] 0 n m := by
  have few : ([] : List Nat).length + n < slotLimit := by
    rw [List.length_nil, slotLimit]
    omega
  have hfills : (Heap.empty heap).Fills heap.limit [] 0 :=
    ⟨hheader, rfl, rfl, rfl, rfl, rfl, Nat.zero_le _, rfl⟩
  exact ⟨_, run_begins 0 0 0 n.toUInt64 0 _, .intro (Word.toInt32_toUInt64 n) hn few hfills⟩

/-- The call on the thread comes to what the thread's machine comes to, and the thread's counters
have counted what was reported. -/
theorem calls_freshVm (settings : ProfilerSettings) (log : Log) (name : String) {n : Word}
    {allocs : List AllocEvent} {value : Except Throwable Word} {m : Machine} {sizes : List Nat}
    {stats : AllocStats}
    (hends : Ends 0 (machine [runAt 0 0 0 0 n] 0 none (storeWith false (.empty heap))) allocs value
      m)
    (hstats : AllocStats.total settings.trackExternal allocs = stats)
    (hrest : AtRest heap.limit sizes stats.collections m) :
    ∃ vm', (freshVm heap settings log name).Calls 0 (loaded heap settings log).1 0 [n] value vm' ∧
      Leaves vm' stats sizes := by
  let fresh := freshVm heap settings log name
  let counters := (AllocCounters.new settings.trackExternal).start
  let thread : Thread := { id := ⟨1⟩, name, state := .running, alloc := counters }
  have hthread : fresh.threads.get? 0 = some thread := rfl
  have hfirst : firstFrame (loaded heap settings log).1 0 [n] = .ok (runAt 0 0 0 0 n) := rfl
  let before : Machine := ⟨.empty Stack.usualLimit, storeWith false (.empty heap)⟩
  obtain ⟨es, hcalls, rfl⟩ := Ends.calls (m := before) hfirst rfl hends
  have hcounters : counters = .counting settings.trackExternal [] := by
    show (AllocCounters.new settings.trackExternal).start = _
    rw [AllocCounters.start_eq, AllocCounters.tracksExternal_new]
  have hown : (es.foldl Observers.observe (fresh.observers thread)).own =
      .counting settings.trackExternal (allocEvents es) := by
    rw [Observers.own_foldl]
    show es.foldl AllocCounters.observe counters = _
    rw [hcounters, AllocCounters.foldl_observe_counting, List.nil_append]
  refine ⟨_, Vm.calls_iff.mpr ⟨thread, .empty Stack.usualLimit, m, es, hthread, rfl, hcalls, rfl⟩,
    ⟨m.stack, rfl, hrest.frames, hrest.pending⟩, ⟨{ thread with alloc := _ }, rfl, ?_⟩, ?_,
    hrest.fills.used, hrest.fills.collections_eq⟩
  · rw [hown]
    exact hstats
  · show m.store.heap.objectCount = _
    rw [Heap.objectCount, hrest.fills.size, hrest.fills.free]
    rfl

theorem total_allocated (trackExternal : Bool) (sizes : List Nat) :
    AllocStats.total trackExternal (sizes.map .allocated) =
      { AllocStats.zero trackExternal with
        heap := { allocCount := sizes.length.toUInt64, allocSize := sizes.sum.toUInt64 } } := by
  have hnone : (sizes.map AllocEvent.allocated).count .collected = 0 :=
    List.count_eq_zero.mpr (by simp)
  simp [AllocStats.total, AllocStats.zero, Tally.total, List.filterMap_map, Function.comp_def,
    AllocEvent.allocated?, AllocEvent.failed?, AllocEvent.freed?, AllocEvent.outside?, hnone]

theorem total_failed (trackExternal : Bool) (sizes : List Nat) (size : Nat) :
    AllocStats.total trackExternal (sizes.map .allocated ++ [.collected, .failed size]) =
      { AllocStats.zero trackExternal with
        heap :=
          { allocCount := sizes.length.toUInt64, allocSize := sizes.sum.toUInt64
            failedCount := 1, failedSize := size.toUInt64 }
        collections := 1 } := by
  rw [List.append_cons, ← AllocStats.count_total, ← AllocStats.count_total, total_allocated]
  simp [AllocStats.count, AllocStats.zero, Tally.failed]

end

/-- **The workload adds up.**  On a fresh machine with headers of 16 bytes, `run(n)` ends for every
`n` below `2 ^ 31`.

If the heap has room for all arrays, it returns `n * (n + 1) / 2` as a number of 32 bits with its
sign extended; the thread's counters have counted the `n` allocations and their bytes, and no
failure and no collection.

Otherwise it throws because an array does not fit, which is the first one that does not: those
before it were made, and the counters have counted them, one failure and one collection.

Either way nothing is pending after it. -/
theorem workload_computes_sum (heap : HeapSettings) (hheader : heap.headerSize = 16)
    (settings : ProfilerSettings) (log : Log) (name : String) (n : Nat) (hn : n < 2 ^ 31) :
    let vm := freshVm heap settings log name
    let home := (loaded heap settings log).1
    let bytes := 16 * n + 2 * n * (n + 1)
    let zero := AllocStats.zero settings.trackExternal
    (bytes ≤ heap.limit →
      ∃ vm', vm.Calls 0 home 0 [n.toUInt64] (.ok (.ofInt32 (.ofNat (n * (n + 1) / 2)))) vm' ∧
        Leaves vm'
          { zero with heap := { allocCount := n.toUInt64, allocSize := bytes.toUInt64 } }
          (arraySizes n)) ∧
    (heap.limit < bytes →
      ∃ vm' made size later, arraySizes n = made ++ size :: later ∧
        made.sum ≤ heap.limit ∧ heap.limit < made.sum + size ∧
        vm.Calls 0 home 0 [n.toUInt64] (.error (.outOfMemory size)) vm' ∧
        Leaves vm'
          { zero with
            heap :=
              { allocCount := made.length.toUInt64, allocSize := made.sum.toUInt64
                failedCount := 1, failedSize := size.toUInt64 }
            collections := 1 }
          made) := by
  obtain ⟨m, hbegins, hhead⟩ := begins_atHead hheader hn
  have hbytes : ([] : List Nat).sum + (arraySizes n).sum = 16 * n + 2 * n * (n + 1) := by
    rw [List.sum_nil, Nat.zero_add, sum_arraySizes]
  refine ⟨fun fits => ?_, fun full => ?_⟩
  · obtain ⟨m', hends, hrest⟩ := hhead.rounds (hbytes ▸ fits)
    obtain ⟨vm', hcalls, hleaves⟩ := calls_freshVm settings log name (Reaches.ends hbegins hends)
      (total_allocated settings.trackExternal (arraySizes n)) hrest
    rw [length_arraySizes, sum_arraySizes] at hleaves
    rw [Nat.zero_add] at hcalls
    exact ⟨vm', hcalls, hleaves⟩
  · obtain ⟨m', made, size, later, hsizes, hspills, hends, hrest⟩ :=
      hhead.rounds_spill (hbytes ▸ full)
    obtain ⟨vm', hcalls, hleaves⟩ := calls_freshVm settings log name (Reaches.ends hbegins hends)
      (total_failed settings.trackExternal made size) hrest
    exact ⟨vm', made, size, later, hsizes, hrest.fills.within, hspills, hcalls, hleaves⟩

/-- Three arrays take 72 bytes.  With that limit they all fit; with one byte less, one does not. -/
theorem workload_computes_sum_three :
    (∃ vm', (freshVm { limit := 72 } {} {} "main").Calls 0 (loaded { limit := 72 } {} {}).1 0 [3]
        (.ok 6) vm' ∧ vm'.store.heap.used = 72 ∧ vm'.store.heap.collections = 0) ∧
      ∃ vm' size, (freshVm { limit := 71 } {} {} "main").Calls 0 (loaded { limit := 71 } {} {}).1 0
        [3] (.error (.outOfMemory size)) vm' ∧ vm'.store.heap.collections = 1 := by
  obtain ⟨vm₁, hsum, hleaves₁⟩ :=
    (workload_computes_sum { limit := 72 } rfl {} {} "main" 3 (by decide)).1 (by decide)
  obtain ⟨vm₂, made, size, later, -, -, -, hspills, hleaves₂⟩ :=
    (workload_computes_sum { limit := 71 } rfl {} {} "main" 3 (by decide)).2 (by decide)
  exact ⟨⟨vm₁, hsum, hleaves₁.used, hleaves₁.collections⟩, vm₂, size, hspills,
    hleaves₂.collections⟩

end Demo

end TracedMachine
