import TracedMachine.Opcode
import TracedMachine.Text.Number

/-!
# Instruction

Instructions with their operands, their code units, and their listing text.

A code unit is sixteen bits.  The low byte of the first unit is the opcode; the high byte holds
one operand of eight bits or two of four, the first of the two in the low half.  Later units
hold two bytes, low first, or one number of sixteen bits; a constant takes two units, low first.

`decodeAt` reads the instruction at an address and `Instruction.units` writes one.
-/

namespace TracedMachine

/-- A code unit. -/
abbrev CodeUnit := UInt16

namespace CodeUnit

/-- The low byte. -/
def low (u : CodeUnit) : UInt8 := u.toUInt8

/-- The high byte. -/
def high (u : CodeUnit) : UInt8 := (u / 256).toUInt8

/-- The unit with these two bytes. -/
def ofBytes (low high : UInt8) : CodeUnit := low.toUInt16 + 256 * high.toUInt16

end CodeUnit

/-- An instruction of the machine.  Register operands are register numbers; `arrayLength`, `move`
and `newArray` hold theirs in four bits each. -/
inductive Instruction where
  | nop
  | move (dst src : UInt8)
  | moveResult (dst : UInt8)
  | moveException (dst : UInt8)
  | returnVoid
  | returnValue (src : UInt8)
  | const (dst : UInt8) (value : Int32)
  | arrayLength (dst array : UInt8)
  | newArray (dst length : UInt8) (classIndex : UInt16)
  | throwNew (kind : UInt8)
  | goto (offset : Int8)
  | ifZero (src : UInt8) (offset : Int16)
  | arrayGet (dst array index : UInt8)
  | arrayPut (src array index : UInt8)
  | invoke (count : UInt8) (methodIndex first : UInt16)
  | addInt (dst lhs rhs : UInt8)
deriving DecidableEq, Repr

namespace Instruction

/-- The operation an instruction performs. -/
def opcode : Instruction → Opcode
  | nop => .nop
  | move .. => .move
  | moveResult .. => .moveResult
  | moveException .. => .moveException
  | returnVoid => .returnVoid
  | returnValue .. => .returnValue
  | const .. => .const
  | arrayLength .. => .arrayLength
  | newArray .. => .newArray
  | throwNew .. => .throwNew
  | goto .. => .goto
  | ifZero .. => .ifZero
  | arrayGet .. => .arrayGet
  | arrayPut .. => .arrayPut
  | invoke .. => .invoke
  | addInt .. => .addInt

/-- The number of code units the instruction takes. -/
def width (i : Instruction) : Nat := i.opcode.width

/-- The operands, in the order of the constructor. -/
def operands : Instruction → List Int
  | nop | returnVoid => []
  | move a b | arrayLength a b => [a.toNat, b.toNat]
  | moveResult a | moveException a | returnValue a | throwNew a => [a.toNat]
  | const dst value => [dst.toNat, value.toInt]
  | newArray dst length classIndex => [dst.toNat, length.toNat, classIndex.toNat]
  | goto offset => [offset.toInt]
  | ifZero src offset => [src.toNat, offset.toInt]
  | arrayGet a b c | arrayPut a b c | addInt a b c => [a.toNat, b.toNat, c.toNat]
  | invoke count methodIndex first => [count.toNat, methodIndex.toNat, first.toNat]

/-- The first unit: opcode and high byte. -/
def headUnit (op : Opcode) (high : UInt8) : CodeUnit := .ofBytes op.byte high

/-- Two operands of four bits, the first in the low half. -/
def nibbles (a b : UInt8) : UInt8 := a % 16 + 16 * b

/-- The code units of an instruction. -/
def units (i : Instruction) : List CodeUnit :=
  match i with
  | nop | returnVoid => [headUnit i.opcode 0]
  | move a b | arrayLength a b => [headUnit i.opcode (nibbles a b)]
  | moveResult a | moveException a | returnValue a | throwNew a => [headUnit i.opcode a]
  | const dst value =>
    let bits := value.toUInt32
    [headUnit i.opcode dst, bits.toUInt16, (bits / 65536).toUInt16]
  | newArray dst length classIndex => [headUnit i.opcode (nibbles dst length), classIndex]
  | goto offset => [headUnit i.opcode offset.toUInt8]
  | ifZero src offset => [headUnit i.opcode src, offset.toUInt16]
  | arrayGet a b c | arrayPut a b c | addInt a b c => [headUnit i.opcode a, .ofBytes b c]
  | invoke count methodIndex first => [headUnit i.opcode count, methodIndex, first]

/-- The instruction as a line of a listing. -/
def text (i : Instruction) : String :=
  let name := i.opcode.name
  match i with
  | nop | returnVoid => name
  | move a b | arrayLength a b => s!"{name} v{a}, v{b}"
  | moveResult a | moveException a | returnValue a => s!"{name} v{a}"
  | const dst value => s!"{name} v{dst}, #{value}"
  | newArray dst length classIndex =>
    s!"{name} v{dst}, v{length}, class@{Text.hex 4 classIndex.toNat}"
  | throwNew kind => s!"{name} kind@{kind}"
  | goto offset => s!"{name} {Text.signed offset.toInt}"
  | ifZero src offset => s!"{name} v{src}, {Text.signed offset.toInt}"
  | arrayGet a b c | arrayPut a b c | addInt a b c => s!"{name} v{a}, v{b}, v{c}"
  | invoke count methodIndex first =>
    let method := Text.hex 4 methodIndex.toNat
    if count = 0 then s!"{name} \x7b\x7d, method@{method}"
    else
      let last := first.toNat + count.toNat - 1
      s!"{name} \x7bv{first} .. v{last}\x7d, method@{method}"

end Instruction

/-- The instruction of an operation, from its first unit and the two units that may follow. -/
def Opcode.instruction (op : Opcode) (head second third : CodeUnit) : Instruction :=
  let high := head.high
  match op with
  | nop => .nop
  | move => .move (high % 16) (high / 16)
  | moveResult => .moveResult high
  | moveException => .moveException high
  | returnVoid => .returnVoid
  | returnValue => .returnValue high
  | const => .const high (second.toUInt32 + 65536 * third.toUInt32).toInt32
  | arrayLength => .arrayLength (high % 16) (high / 16)
  | newArray => .newArray (high % 16) (high / 16) second
  | throwNew => .throwNew high
  | goto => .goto high.toInt8
  | ifZero => .ifZero high second.toInt16
  | arrayGet => .arrayGet high second.low second.high
  | arrayPut => .arrayPut high second.low second.high
  | invoke => .invoke high second third
  | addInt => .addInt high second.low second.high

/-- Why there is no instruction at an address. -/
inductive DecodeError where
  /-- The low byte of the unit is no opcode. -/
  | unknownOpcode (byte : UInt8) (pc : Nat)
  /-- The code ends before the instruction does. -/
  | truncated (pc : Nat)
deriving DecidableEq, Repr

/-- The error in words. -/
def DecodeError.message : DecodeError → String
  | unknownOpcode byte pc => s!"unknown opcode {Text.hex 2 byte.toNat} at pc {pc}"
  | truncated pc => s!"instruction at pc {pc} runs past the end of the code"

/-- The instruction at address `pc`. -/
def decodeAt (code : Array CodeUnit) (pc : Nat) : Except DecodeError Instruction :=
  match code[pc]? with
  | none => .error (.truncated pc)
  | some head =>
    match Opcode.ofByte? head.low with
    | none => .error (.unknownOpcode head.low pc)
    | some op =>
      if pc + op.width ≤ code.size then
        .ok (op.instruction head (code.getD (pc + 1) 0) (code.getD (pc + 2) 0))
      else .error (.truncated pc)

@[simp] theorem Opcode.opcode_instruction (op : Opcode) (head second third : CodeUnit) :
    (op.instruction head second third).opcode = op := by
  cases op <;> rfl

theorem Instruction.width_pos (i : Instruction) : 0 < i.width :=
  i.opcode.width_pos

/-- One line of a listing: an address and what is decoded there. -/
structure ListingLine where
  pc : Nat
  decoded : Except DecodeError Instruction

/-- The instructions from `pc` on, each at the address after the one before it; an error ends the
listing.  `fuel` bounds the number of lines. -/
def listingFrom (code : Array CodeUnit) : Nat → Nat → List ListingLine
  | 0, _ => []
  | fuel + 1, pc =>
    if pc < code.size then
      match decodeAt code pc with
      | .ok i => ⟨pc, .ok i⟩ :: listingFrom code fuel (pc + i.width)
      | .error e => [⟨pc, .error e⟩]
    else []

/-- The whole code, instruction by instruction. -/
def listing (code : Array CodeUnit) : List ListingLine :=
  listingFrom code code.size 0

end TracedMachine
