import TracedMachine.Text.Split

/-!
# Descriptor

Descriptors name types: one letter for a primitive type, `L` name `;` for a class, `[` and a
descriptor for an array.  A class name is one part or more with a slash between two, and a part is
one character or more, none of them `;`, `[` or `.`.

`ElementType.ofDescriptor?` reads a descriptor as the type of an array's elements; all that an
array has to know of a class or of another array is that its elements are references.
-/

namespace TracedMachine

/-- The type of an array's elements. -/
inductive ElementType where
  | boolean
  | byte
  | char
  | short
  | int
  | float
  | long
  | double
  | reference
deriving DecidableEq, Repr

namespace ElementType

/-- The bytes one element takes. -/
def width : ElementType → Nat
  | boolean | byte => 1
  | char | short => 2
  | int | float | reference => 4
  | long | double => 8

/-- Not a reference. -/
def isPrimitive (t : ElementType) : Bool := t ≠ reference

/-- A part of a class name. -/
def isNamePart (part : List Char) : Bool :=
  !part.isEmpty && part.all fun c => c ≠ ';' && c ≠ '[' && c ≠ '.'

/-- A class name. -/
def isClassName (name : List Char) : Bool :=
  (Text.splitAt '/' name).all isNamePart

/-- The element type a descriptor names; nothing if it is no descriptor. -/
def ofDescriptor? : List Char → Option ElementType
  | ['Z'] => some boolean
  | ['B'] => some byte
  | ['C'] => some char
  | ['S'] => some short
  | ['I'] => some int
  | ['F'] => some float
  | ['J'] => some long
  | ['D'] => some double
  | 'L' :: rest =>
    if rest.getLast? = some ';' ∧ isClassName rest.dropLast then some reference else none
  | '[' :: rest => (ofDescriptor? rest).map fun _ => reference
  | _ => none

end ElementType

end TracedMachine
