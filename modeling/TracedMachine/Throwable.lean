import TracedMachine.Instruction

/-!
# Throwable

What the machine throws.  A throwable has a kind, which catch tables match, and a message.  The
causes are listed one by one; `Throwable.kind` and `Throwable.message` say how each is seen from
outside.  `raised` is a throwable with a kind and message of its caller's choice.
-/

namespace TracedMachine

/-- The kinds of throwables. -/
inductive ThrowableKind where
  | runtimeException
  | negativeArraySize
  | noClassDefFound
  | outOfMemory
  | nullPointer
  | arrayIndexOutOfBounds
  | verifyError
  | stackOverflow
deriving DecidableEq, Repr

namespace ThrowableKind

/-- Every kind, by ascending code. -/
def all : List ThrowableKind :=
  [runtimeException, negativeArraySize, noClassDefFound, outOfMemory, nullPointer,
    arrayIndexOutOfBounds, verifyError, stackOverflow]

/-- The number of a kind in code and in registers. -/
def code : ThrowableKind → Nat
  | runtimeException => 0
  | negativeArraySize => 1
  | noClassDefFound => 2
  | outOfMemory => 3
  | nullPointer => 4
  | arrayIndexOutOfBounds => 5
  | verifyError => 6
  | stackOverflow => 7

/-- The kind with this number. -/
def ofCode? (n : Nat) : Option ThrowableKind := all[n]?

/-- The descriptor of the kind's class. -/
def descriptor : ThrowableKind → String
  | runtimeException => "Ljava/lang/RuntimeException;"
  | negativeArraySize => "Ljava/lang/NegativeArraySizeException;"
  | noClassDefFound => "Ljava/lang/NoClassDefFoundError;"
  | outOfMemory => "Ljava/lang/OutOfMemoryError;"
  | nullPointer => "Ljava/lang/NullPointerException;"
  | arrayIndexOutOfBounds => "Ljava/lang/ArrayIndexOutOfBoundsException;"
  | verifyError => "Ljava/lang/VerifyError;"
  | stackOverflow => "Ljava/lang/StackOverflowError;"

theorem ofCode?_code (k : ThrowableKind) : ofCode? k.code = some k := by
  cases k <;> rfl

end ThrowableKind

/-- What code can do that a verifier would have refused. -/
inductive VerifyFault where
  | registerOutOfRange (index count : Nat)
  | notReference (index : Nat)
  | argumentsDoNotFit (arguments registers : Nat)
  | noMethod (index : Nat)
  | argumentCount (method : String) (takes given : Nat)
  | noFrame
  | undecodable (e : DecodeError)
  | noPendingException
  | unknownThrowable (code : Nat)
  | branchLeaves (pc : Nat) (offset : Int)
  | classIndexOutOfRange (index : Nat)
  | staleReference (raw : Nat)
  | lengthOfNonArray (descriptor : String)
  | notArrayClass (descriptor : String)
  | notInstantiable (descriptor : String)
deriving DecidableEq, Repr

/-- The fault in words. -/
def VerifyFault.message : VerifyFault → String
  | registerOutOfRange index count => s!"register v{index} out of range ({count} registers)"
  | notReference index => s!"v{index} does not hold a reference"
  | argumentsDoNotFit arguments registers => s!"{arguments} arguments for {registers} registers"
  | noMethod index => s!"no method {index} in module"
  | argumentCount method takes given => s!"{method} takes {takes} arguments, got {given}"
  | noFrame => "no frame to execute"
  | undecodable e => e.message
  | noPendingException => "no exception to move"
  | unknownThrowable code => s!"unknown throwable kind {code}"
  | branchLeaves pc offset => s!"branch at {pc} by {offset} leaves the method"
  | classIndexOutOfRange index => s!"class index {index} out of range"
  | staleReference raw => s!"stale object reference {raw}"
  | lengthOfNonArray descriptor => s!"array-length on {descriptor}"
  | notArrayClass descriptor => s!"{descriptor} is not an array class"
  | notInstantiable descriptor => s!"{descriptor} cannot be instantiated"

/-- What the machine throws. -/
inductive Throwable where
  /-- A kind and a message of the caller's choice. -/
  | raised (kind : ThrowableKind) (message : Option String)
  /-- An array was asked for with a negative length. -/
  | negativeArraySize (length : Int)
  /-- No class has this descriptor and none can be made for it. -/
  | noClass (descriptor : String)
  /-- The heap has no room for an object of this many bytes. -/
  | outOfMemory (bytes : Nat)
  /-- Null where an object is needed. -/
  | nullPointer
  /-- An index outside an array. -/
  | indexOutOfBounds (length : Nat) (index : Int)
  /-- The stack holds as many frames as it may. -/
  | stackOverflow (frames : Nat)
  /-- Code that a verifier would have refused. -/
  | verify (fault : VerifyFault)
deriving DecidableEq, Repr

namespace Throwable

/-- The kind that catch tables match. -/
def kind : Throwable → ThrowableKind
  | raised kind _ => kind
  | negativeArraySize _ => .negativeArraySize
  | noClass _ => .noClassDefFound
  | outOfMemory _ => .outOfMemory
  | nullPointer => .nullPointer
  | indexOutOfBounds .. => .arrayIndexOutOfBounds
  | stackOverflow _ => .stackOverflow
  | verify _ => .verifyError

/-- The message, if it has one. -/
def message : Throwable → Option String
  | raised _ message => message
  | negativeArraySize length => some (toString length)
  | noClass descriptor => some descriptor
  | outOfMemory bytes => some s!"failed to allocate {bytes} bytes"
  | nullPointer => none
  | indexOutOfBounds length index => some s!"length={length}; index={index}"
  | stackOverflow frames => some s!"{frames} frames"
  | verify fault => some fault.message

/-- The throwable in one line: its class, and its message after a colon. -/
def text (t : Throwable) : String :=
  match t.message with
  | some message => s!"{t.kind.descriptor}: {message}"
  | none => t.kind.descriptor

end Throwable

end TracedMachine
