import TracedMachine.ClassTable
import TracedMachine.ObjectRef

/-!
# Heap

Objects with a limit on their bytes.  Objects stand in numbered slots; a slot that becomes empty
goes on a stack and the one on top is used next.  An object dies when it is freed, or at the first
collection after it was released.  An allocation that does not fit collects once and tries again
before it fails.

Objects that are *tracked* are known to the embedder only; releasing an object drops it from the
tracked set.

The heap also keeps account of memory allocated outside of it, with a limit of its own.
-/

namespace TracedMachine

/-- An object in the heap. -/
structure HeapObject where
  cls : Class
  slots : Array Word
  /-- The bytes charged, header included. -/
  size : Nat
deriving DecidableEq, Repr

/-- What a heap is set up with. -/
structure HeapSettings where
  /-- The bytes that objects may take in all. -/
  limit : Nat
  /-- The bytes charged for an object besides its contents. -/
  headerSize : Nat := 16
  /-- The bytes that may be allocated outside the heap. -/
  externalLimit : Nat := maxSize
deriving DecidableEq, Repr

/-- Objects and what is known of them. -/
structure Heap where
  settings : HeapSettings
  objects : Array (Option HeapObject) := #[]
  /-- Empty slots, the next one to use first. -/
  free : List ObjectRef := []
  /-- The bytes charged for all objects. -/
  used : Nat := 0
  /-- Objects known to the embedder only. -/
  tracked : List ObjectRef := []
  /-- Released objects that wait for a collection, in the order of release. -/
  garbage : Array ObjectRef := #[]
  /-- The number of collections. -/
  collections : UInt64 := 0
  /-- The bytes allocated outside the heap. -/
  externalUsed : Nat := 0
deriving DecidableEq

namespace Heap

/-- A heap without objects. -/
def empty (settings : HeapSettings) : Heap := { settings }

/-- The number of objects. -/
def objectCount (h : Heap) : Nat := h.objects.size - h.free.length

/-- The object a reference names. -/
def object? (h : Heap) (r : ObjectRef) : Option HeapObject := h.objects[r.slot]?.join

/-- Empties the slot of an object, and gives the object. -/
def remove (h : Heap) (r : ObjectRef) : Option (HeapObject × Heap) :=
  match h.object? r with
  | none => none
  | some o =>
    some (o, { h with
      objects := h.objects.setIfInBounds r.slot none
      used := h.used - o.size
      free := r :: h.free
      tracked := h.tracked.filter (· ≠ r) })

/-- Empties the slots of those objects that are there, and lists their sizes in order. -/
def reclaim (h : Heap) : List ObjectRef → List Nat × Heap
  | [] => ([], h)
  | r :: rs =>
    match h.remove r with
    | none => h.reclaim rs
    | some (o, h) =>
      let (sizes, h) := h.reclaim rs
      (o.size :: sizes, h)

/-- Removes all released objects, and gives the bytes they took. -/
def collect (h : Heap) : Outcome Heap Event Nat :=
  let (sizes, h) := { h with garbage := #[] }.reclaim h.garbage.toList
  let bytes := sizes.foldl (· + ·) 0
  { value := bytes
    state := { h with collections := h.collections + 1 }
    events := .passBegan .collection :: sizes.map (fun n => .alloc (.freed n)) ++
      [.alloc .collected, .passEnded .collection, .notice (.reclaimed sizes.length bytes)] }

/-- The slot of the next object: the last one emptied, or a new one if a reference can name it. -/
def nextSlot? (h : Heap) : Option ObjectRef :=
  match h.free with
  | r :: _ => some r
  | [] => ObjectRef.ofSlot? h.objects.size

/-- The slot for an object of so many bytes, if the object fits. -/
def slotFor? (h : Heap) (size : Nat) : Option ObjectRef :=
  if h.settings.limit < h.used + size then none else h.nextSlot?

/-- Puts an object into the next slot, which is that of `r`. -/
def place (h : Heap) (r : ObjectRef) (cls : Class) (slots size : Nat) (track : Bool) : Heap :=
  let o : HeapObject := { cls, slots := Array.replicate slots 0, size }
  { h with
    objects :=
      if r.slot < h.objects.size then h.objects.setIfInBounds r.slot (some o)
      else h.objects.push (some o)
    free := h.free.tail
    used := h.used + size
    tracked := if track then r :: h.tracked.filter (· ≠ r) else h.tracked }

/-- Allocates an object whose contents take `size` bytes. -/
def allocate (h : Heap) (cls : Class) (slots size : Nat) (track : Bool) :
    Outcome Heap Event (Except Throwable ObjectRef) :=
  let charged := addSize h.settings.headerSize size
  match h.slotFor? charged with
  | some r =>
    { value := .ok r, state := h.place r cls slots charged track
      events := [.alloc (.allocated charged)] }
  | none =>
    let ⟨_, h, events⟩ := h.collect
    match h.slotFor? charged with
    | some r =>
      { value := .ok r, state := h.place r cls slots charged track
        events := events ++ [.alloc (.allocated charged)] }
    | none =>
      { value := .error (.outOfMemory charged), state := h
        events := events ++
          [.alloc (.failed charged), .notice (.outOfMemory charged cls.descriptor)] }

/-- Allocates an array of zeros. -/
def allocateArray (h : Heap) (cls : Class) (length : Nat) (track : Bool) :
    Outcome Heap Event (Except Throwable ObjectRef) :=
  match cls.element? with
  | none =>
    { value := .error (.verify (.notArrayClass cls.descriptor)), state := h, events := [] }
  | some element => h.allocate cls length (mulSize length element.width) track

/-- Allocates an object whose fields are zero.  A field takes four bytes; unlike the bytes of an
array, those of all fields are a product that wraps around. -/
def allocateInstance (h : Heap) (cls : Class) (track : Bool) :
    Outcome Heap Event (Except Throwable ObjectRef) :=
  match cls.kind with
  | .array _ =>
    { value := .error (.verify (.notInstantiable cls.descriptor)), state := h, events := [] }
  | .instances fields => h.allocate cls fields (mulWrapped fields 4) track

/-- The error for a reference to no object. -/
def stale (r : ObjectRef) : Throwable := .verify (.staleReference r.raw)

/-- Frees an object at once, and gives the bytes it took. -/
def freeObject (h : Heap) (r : ObjectRef) : Outcome Heap Event (Except Throwable Nat) :=
  match h.remove r with
  | none => { value := .error (stale r), state := h, events := [] }
  | some (o, h) => { value := .ok o.size, state := h, events := [.alloc (.freed o.size)] }

/-- Leaves an object to the next collection. -/
def release (h : Heap) (r : ObjectRef) : Heap :=
  { h with tracked := h.tracked.filter (· ≠ r), garbage := h.garbage.push r }

/-- The object is tracked. -/
def isTracked (h : Heap) (r : ObjectRef) : Bool := h.tracked.contains r

/-- Drops an object from the tracked set, and says whether it was in it. -/
def releaseTracked (h : Heap) (r : ObjectRef) : Bool × Heap :=
  (h.isTracked r, { h with tracked := h.tracked.filter (· ≠ r) })

/-- The class of an object. -/
def classOf? (h : Heap) (r : ObjectRef) : Option Class := (h.object? r).map (·.cls)

/-- The length of an array. -/
def arrayLength (h : Heap) (r : ObjectRef) : Except Throwable Nat :=
  match h.object? r with
  | none => .error (stale r)
  | some o =>
    if o.cls.isArray then .ok o.slots.size
    else .error (.verify (.lengthOfNonArray o.cls.descriptor))

/-- Checks that an object is there and has an element `index`. -/
def elementIndex (h : Heap) (r : ObjectRef) (index : Int32) : Except Throwable Nat :=
  match h.object? r with
  | none => .error (stale r)
  | some o =>
    let i := index.toInt
    if 0 ≤ i ∧ i.toNat < o.slots.size then .ok i.toNat
    else .error (.indexOutOfBounds o.slots.size i)

/-- The word in an element of an object; zero if there is no such element. -/
def load (h : Heap) (r : ObjectRef) (index : Nat) : Word :=
  match h.object? r with
  | none => 0
  | some o => o.slots.getD index 0

/-- Stores a word in an element of an object, if there is such an element. -/
def store (h : Heap) (r : ObjectRef) (index : Nat) (w : Word) : Heap :=
  { h with
    objects := h.objects.modify r.slot fun slot =>
      slot.map fun o => { o with slots := o.slots.setIfInBounds index w } }

/-- An element of an array, or a field of another object. -/
def arrayGet (h : Heap) (r : ObjectRef) (index : Int32) : Except Throwable Word :=
  (h.elementIndex r index).map fun i => h.load r i

/-- Stores an element of an array, or a field of another object. -/
def arrayPut (h : Heap) (r : ObjectRef) (index : Int32) (w : Word) : Except Throwable Heap :=
  (h.elementIndex r index).map fun i => h.store r i w

/-- Accounts for memory allocated outside the heap, and says whether it fits. -/
def externalAlloc (h : Heap) (bytes : Nat) : Outcome Heap Event Bool :=
  if h.externalUsed + bytes ≤ h.settings.externalLimit then
    { value := true, state := { h with externalUsed := h.externalUsed + bytes }
      events := [.alloc (.externalAllocated bytes)] }
  else { value := false, state := h, events := [.alloc (.externalFailed bytes)] }

/-- Accounts for memory freed outside the heap. -/
def externalFree (h : Heap) (bytes : Nat) : Outcome Heap Event Unit :=
  { value := (), state := { h with externalUsed := h.externalUsed - bytes }
    events := [.alloc (.externalFreed bytes)] }

end Heap

end TracedMachine
