import TracedMachine.Instruction
import TracedMachine.Text.Number
import TracedMachine.Word

/-!
# Assembler

Code under construction.  Instructions are emitted one after the other.  A branch whose target
is not known yet is emitted with offset zero and leaves a `Label`; binding the label writes the
distance from the branch to the current address into it.  A distance that the branch's offset
field cannot hold is refused: eight bits for `goto`, sixteen for `if-eqz`.

`Assembly` names labels and addresses, so that a whole method can be written as a list of lines.
-/

namespace TracedMachine

/-- Why a branch cannot be assembled. -/
inductive BranchError where
  /-- The distance of a `goto` needs more than eight bits. -/
  | gotoTooFar
  /-- The distance of an `if-eqz` needs more than sixteen bits. -/
  | ifZeroTooFar
deriving DecidableEq, Repr

/-- The error in words. -/
def BranchError.message : BranchError → String
  | gotoTooFar => "goto offset fits in i8"
  | ifZeroTooFar => "branch offset fits in i16"

/-- The two branches that wait for a target. -/
inductive BranchKind where
  | goto
  | ifZero
deriving DecidableEq, Repr

/-- A branch that waits for its target. -/
structure Label where
  /-- The address of the branch. -/
  address : Nat
  /-- Which branch stands there. -/
  kind : BranchKind
deriving DecidableEq, Repr

/-- Code under construction. -/
structure Assembler where
  units : Array CodeUnit := #[]

/-- A distance in eight bits. -/
def int8? (distance : Int) : Option Int8 :=
  if -128 ≤ distance ∧ distance ≤ 127 then some (Int8.ofInt distance) else none

/-- A distance in sixteen bits. -/
def int16? (distance : Int) : Option Int16 :=
  if -32768 ≤ distance ∧ distance ≤ 32767 then some (Int16.ofInt distance) else none

namespace Assembler

/-- The address of the next instruction. -/
def current (a : Assembler) : Nat := a.units.size

/-- Adds an instruction. -/
def emit (a : Assembler) (i : Instruction) : Assembler :=
  ⟨a.units ++ i.units.toArray⟩

/-- A `goto` that waits for its target. -/
def goto (a : Assembler) : Assembler × Label :=
  (a.emit (.goto 0), ⟨a.current, .goto⟩)

/-- An `if-eqz` that waits for its target. -/
def ifZero (a : Assembler) (src : UInt8) : Assembler × Label :=
  (a.emit (.ifZero src 0), ⟨a.current, .ifZero⟩)

/-- A `goto` to an address that is known already.  Addresses are words: the distance is taken
around the end of the address space if that is nearer. -/
def gotoBack (a : Assembler) (target : Nat) : Except BranchError Assembler :=
  match int8? (((target : Int) - a.current).bmod 0x10000000000000000) with
  | some offset => .ok (a.emit (.goto offset))
  | none => .error .gotoTooFar

/-- Points a waiting branch at the current address. -/
def bind (a : Assembler) (label : Label) : Except BranchError Assembler :=
  let distance := (a.current : Int) - label.address
  match label.kind with
  | .goto =>
    match int8? distance with
    | some offset =>
      .ok ⟨a.units.setIfInBounds label.address (Instruction.headUnit .goto offset.toUInt8)⟩
    | none => .error .gotoTooFar
  | .ifZero =>
    match int16? distance with
    | some offset => .ok ⟨a.units.setIfInBounds (label.address + 1) offset.toUInt16⟩
    | none => .error .ifZeroTooFar

end Assembler

/-- One line of assembly. -/
inductive AssemblyLine where
  /-- An instruction, any number of times. -/
  | emit (i : Instruction) (times : Nat)
  /-- A `goto` that waits under a name; a label that waited under it is forgotten. -/
  | goto (label : String)
  /-- An `if-eqz` that waits under a name; a label that waited under it is forgotten. -/
  | ifZero (src : UInt8) (label : String)
  /-- Points the branch waiting under a name at the current address. -/
  | bind (label : String)
  /-- Names the current address. -/
  | mark (name : String)
  /-- A `goto` to a named address; a decimal number that names none stands for itself. -/
  | gotoMark (name : String)
  /-- A `goto` to an address. -/
  | gotoAddress (target : Nat)

/-- Why lines cannot be assembled. -/
inductive AssemblyError where
  /-- A branch cannot reach its target. -/
  | branch (e : BranchError)
  /-- A name that stands for no label or address. -/
  | unknownName (name : String)
deriving DecidableEq, Repr

/-- Code under construction, with names for waiting branches and for addresses. -/
structure Assembly where
  code : Assembler := {}
  labels : List (String × Label) := []
  marks : List (String × Nat) := []

namespace Assembly

/-- Lets a label wait under a name. -/
def await (s : Assembly) (name : String) : Assembler × Label → Assembly
  | (code, label) =>
    { s with code, labels := (name, label) :: s.labels.filter (·.1 != name) }

/-- The address a name stands for. -/
def address? (s : Assembly) (name : String) : Option Nat :=
  (s.marks.lookup name).or (Text.readNat? 10 maxSize name.toList)

/-- A `goto` to an address that is known already. -/
def gotoBack (s : Assembly) (target : Nat) : Except AssemblyError Assembly :=
  match s.code.gotoBack target with
  | .ok code => .ok { s with code }
  | .error e => .error (.branch e)

/-- Adds one line. -/
def step (s : Assembly) : AssemblyLine → Except AssemblyError Assembly
  | .emit i times => .ok { s with code := Nat.repeat (·.emit i) times s.code }
  | .goto label => .ok (s.await label s.code.goto)
  | .ifZero src label => .ok (s.await label (s.code.ifZero src))
  | .bind name =>
    match s.labels.lookup name with
    | none => .error (.unknownName name)
    | some label =>
      match s.code.bind label with
      | .ok code => .ok { s with code, labels := s.labels.filter (·.1 != name) }
      | .error e => .error (.branch e)
  | .mark name =>
    .ok { s with marks := (name, s.code.current) :: s.marks.filter (·.1 != name) }
  | .gotoMark name =>
    match s.address? name with
    | none => .error (.unknownName name)
    | some target => s.gotoBack target
  | .gotoAddress target => s.gotoBack target

/-- Adds lines, and lists the address after each. -/
def steps (s : Assembly) : List AssemblyLine → Except AssemblyError (Assembly × List Nat)
  | [] => .ok (s, [])
  | line :: lines => do
    let s ← s.step line
    let (last, addresses) ← s.steps lines
    return (last, s.code.current :: addresses)

end Assembly

/-- The code of a list of lines. -/
def assemble (lines : List AssemblyLine) : Except AssemblyError (Array CodeUnit) :=
  (Assembly.steps {} lines).map fun (s, _) => s.code.units

end TracedMachine
