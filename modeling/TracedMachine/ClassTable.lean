import TracedMachine.Descriptor
import TracedMachine.Event

/-!
# ClassTable

Classes by descriptor.  Classes with instances are defined by hand; array classes are made when
they are first asked for, provided that their element class is there or can be made.

`ClassTable.find` looks a class up and makes what is missing.  A module refers to classes by
number; `ClassCache` remembers, per number, the class that was found.
-/

namespace TracedMachine

/-- What a class's objects are. -/
inductive ClassKind where
  /-- Objects with so many fields. -/
  | instances (fields : Nat)
  /-- Arrays. -/
  | array (element : ElementType)
deriving DecidableEq, Repr

/-- A class. -/
structure Class where
  descriptor : String
  kind : ClassKind
  initialized : Bool
deriving DecidableEq, Repr

namespace Class

/-- The type of the elements, if the class is an array class. -/
def element? (c : Class) : Option ElementType :=
  match c.kind with
  | .array element => some element
  | .instances _ => none

/-- The class is an array class. -/
def isArray (c : Class) : Bool := c.element?.isSome

end Class

/-- All classes, in the order in which they were made. -/
structure ClassTable where
  classes : List Class := []
deriving DecidableEq, Repr

namespace ClassTable

/-- The number of classes. -/
def size (t : ClassTable) : Nat := t.classes.length

/-- The class with this descriptor, if it is there. -/
def get? (t : ClassTable) (descriptor : String) : Option Class :=
  t.classes.find? fun c => c.descriptor = descriptor

/-- Makes a class.  A class that is there already stays as it is. -/
def prepare (t : ClassTable) (descriptor : String) (kind : ClassKind) :
    Outcome ClassTable Event Class :=
  match t.get? descriptor with
  | some c =>
    { value := c, state := t
      events := [.passBegan .classPreparation, .passEnded .classPreparation] }
  | none =>
    let c : Class := { descriptor, kind, initialized := true }
    { value := c, state := ⟨t.classes ++ [c]⟩
      events := [.passBegan .classPreparation, .notice (.preparing descriptor),
        .passEnded .classPreparation] }

/-- Defines a class with instances.  A class that is there already stays as it is. -/
def define (t : ClassTable) (descriptor : String) (fields : Nat) :
    Outcome ClassTable Event Class :=
  match t.get? descriptor with
  | some c => { value := c, state := t, events := [] }
  | none => t.prepare descriptor (.instances fields)

/-- The class with a descriptor, given by its characters; array classes are made if they are not
there, those of their elements first. -/
def findChars (t : ClassTable) (chars : List Char) :
    Outcome ClassTable Event (Except Throwable Class) :=
  let descriptor := String.ofList chars
  match t.get? descriptor with
  | some c => { value := .ok c, state := t, events := [] }
  | none =>
    match chars with
    | '[' :: rest =>
      match ElementType.ofDescriptor? rest with
      | none => { value := .error (.noClass descriptor), state := t, events := [] }
      | some element =>
        if element.isPrimitive then
          let made := t.prepare descriptor (.array element)
          { value := .ok made.value, state := made.state, events := made.events }
        else
          let found := t.findChars rest
          match found.value with
          | .error e => { value := .error e, state := found.state, events := found.events }
          | .ok _ =>
            let made := found.state.prepare descriptor (.array element)
            { value := .ok made.value, state := made.state, events := found.events ++ made.events }
    | _ => { value := .error (.noClass descriptor), state := t, events := [] }

/-- The class with a descriptor; array classes are made if they are not there. -/
def find (t : ClassTable) (descriptor : String) :
    Outcome ClassTable Event (Except Throwable Class) :=
  t.findChars descriptor.toList

end ClassTable

/-- The classes a module's numbers have been resolved to. -/
structure ClassCache where
  resolved : Array (Option Class)
deriving DecidableEq, Repr

namespace ClassCache

/-- Nothing is resolved yet. -/
def empty (size : Nat) : ClassCache := ⟨Array.replicate size none⟩

/-- The class a number was resolved to. -/
def get? (c : ClassCache) (index : Nat) : Option Class := c.resolved[index]?.join

/-- Remembers the class of a number. -/
def set (c : ClassCache) (index : Nat) (cls : Class) : ClassCache :=
  ⟨c.resolved.setIfInBounds index (some cls)⟩

end ClassCache

end TracedMachine
