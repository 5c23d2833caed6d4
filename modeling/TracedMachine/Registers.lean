import TracedMachine.ObjectRef
import TracedMachine.Throwable

/-!
# Registers

The registers of one frame.  A register that does not exist is a verify error, and so is a
reference read from a register that does not hold one.
-/

namespace TracedMachine

/-- The registers of a frame. -/
structure Registers where
  words : Array Word
deriving DecidableEq, Repr

namespace Registers

/-- That many registers, all zero. -/
def zeroed (count : Nat) : Registers := ⟨Array.replicate count 0⟩

/-- The number of registers. -/
def size (r : Registers) : Nat := r.words.size

/-- The error for a register that does not exist. -/
def outOfRange (r : Registers) (i : Nat) : Throwable :=
  .verify (.registerOutOfRange i r.size)

/-- The word in register `i`. -/
def get (r : Registers) (i : Nat) : Except Throwable Word :=
  match r.words[i]? with
  | some w => .ok w
  | none => .error (r.outOfRange i)

/-- Checks that there is a register `i`. -/
def check (r : Registers) (i : Nat) : Except Throwable Unit :=
  if i < r.size then .ok () else .error (r.outOfRange i)

/-- Stores a word in register `i`, if there is one. -/
def store (r : Registers) (i : Nat) (w : Word) : Registers :=
  ⟨r.words.setIfInBounds i w⟩

/-- Stores a word in register `i`. -/
def set (r : Registers) (i : Nat) (w : Word) : Except Throwable Registers :=
  (r.check i).map fun _ => r.store i w

/-- Register `i` as a signed number. -/
def getInt (r : Registers) (i : Nat) : Except Throwable Int32 :=
  (r.get i).map Word.toInt32

/-- Stores a signed number in register `i`. -/
def setInt (r : Registers) (i : Nat) (n : Int32) : Except Throwable Registers :=
  r.set i (Word.ofInt32 n)

/-- Register `i` as a reference or null. -/
def getRef (r : Registers) (i : Nat) : Except Throwable (Option ObjectRef) := do
  let w ← r.get i
  if w = 0 then return none
  match ObjectRef.ofRaw? w.toNat with
  | some ref => return some ref
  | none => throw (.verify (.notReference i))

/-- Register `i` as a reference to an object. -/
def getObject (r : Registers) (i : Nat) : Except Throwable ObjectRef := do
  match ← r.getRef i with
  | some ref => return ref
  | none => throw .nullPointer

/-- Stores a reference or null in register `i`. -/
def setRef (r : Registers) (i : Nat) (ref : Option ObjectRef) : Except Throwable Registers :=
  r.set i (ObjectRef.wordOf ref)

/-- The words of `count` registers from `first` on. -/
def range (r : Registers) (first count : Nat) : Except Throwable (List Word) :=
  if maxSize < first + count then .error (r.outOfRange first)
  else if r.size < first + count then .error (r.outOfRange (first + count - 1))
  else .ok (r.words.extract first (first + count)).toList

/-- Stores arguments in the last registers. -/
def loadArgs (r : Registers) (args : List Word) : Except Throwable Registers :=
  if args.length ≤ r.size then
    .ok ⟨r.words.take (r.size - args.length) ++ args.toArray⟩
  else .error (.verify (.argumentsDoNotFit args.length r.size))

end Registers

end TracedMachine
