import TracedMachine.Word

/-!
# ObjectRef

References to heap objects.  A reference is the number of an object's slot; in a register it is
stored as that number plus one, so that zero is null, and it has to fit 32 bits.
-/

namespace TracedMachine

/-- The number of heap slots a reference can name. -/
def slotLimit : Nat := 0xffffffff

/-- A reference to a heap object. -/
structure ObjectRef where
  /-- The object's slot. -/
  slot : Nat
  /-- The reference fits a register. -/
  slot_lt : slot < slotLimit
deriving DecidableEq

namespace ObjectRef

/-- The number that stands for a reference in registers and in messages. -/
def raw (r : ObjectRef) : Nat := r.slot + 1

/-- The reference to a slot, if it has one. -/
def ofSlot? (slot : Nat) : Option ObjectRef :=
  if h : slot < slotLimit then some ⟨slot, h⟩ else none

/-- The reference a number stands for: zero is null, and so is what does not fit 32 bits. -/
def ofRaw? (raw : Nat) : Option ObjectRef :=
  if raw = 0 then none else ofSlot? (raw - 1)

/-- A reference as a word. -/
def toWord (r : ObjectRef) : Word := r.raw.toUInt64

/-- A reference or null as a word. -/
def wordOf : Option ObjectRef → Word
  | none => 0
  | some r => r.toWord

end ObjectRef

end TracedMachine
