/-!
# Opcode

The sixteen operations of the machine.  Each has a byte, which is the low byte of an
instruction's first code unit, a name, and a width in code units.
-/

namespace TracedMachine

/-- The operations of the machine. -/
inductive Opcode where
  | nop
  | move
  | moveResult
  | moveException
  | returnVoid
  | returnValue
  | const
  | arrayLength
  | newArray
  | throwNew
  | goto
  | ifZero
  | arrayGet
  | arrayPut
  | invoke
  | addInt
deriving DecidableEq, Repr

namespace Opcode

/-- The low byte of the first code unit. -/
def byte : Opcode → UInt8
  | nop => 0x00
  | move => 0x01
  | moveResult => 0x0a
  | moveException => 0x0d
  | returnVoid => 0x0e
  | returnValue => 0x0f
  | const => 0x14
  | arrayLength => 0x21
  | newArray => 0x23
  | throwNew => 0x27
  | goto => 0x28
  | ifZero => 0x38
  | arrayGet => 0x44
  | arrayPut => 0x4b
  | invoke => 0x77
  | addInt => 0x90

/-- The name in listings. -/
def name : Opcode → String
  | nop => "nop"
  | move => "move"
  | moveResult => "move-result"
  | moveException => "move-exception"
  | returnVoid => "return-void"
  | returnValue => "return"
  | const => "const"
  | arrayLength => "array-length"
  | newArray => "new-array"
  | throwNew => "throw-new"
  | goto => "goto"
  | ifZero => "if-eqz"
  | arrayGet => "aget"
  | arrayPut => "aput"
  | invoke => "invoke-static/range"
  | addInt => "add-int"

/-- The number of code units an instruction takes. -/
def width : Opcode → Nat
  | nop | move | moveResult | moveException | returnVoid | returnValue | arrayLength
  | throwNew | goto => 1
  | newArray | ifZero | arrayGet | arrayPut | addInt => 2
  | const | invoke => 3

/-- Every operation, by ascending byte. -/
def all : List Opcode :=
  [nop, move, moveResult, moveException, returnVoid, returnValue, const, arrayLength, newArray,
    throwNew, goto, ifZero, arrayGet, arrayPut, invoke, addInt]

/-- The operation with this byte. -/
def ofByte? (b : UInt8) : Option Opcode :=
  all.find? fun op => op.byte = b

theorem mem_all (op : Opcode) : op ∈ all := by
  cases op <;> decide

theorem ofByte?_byte (op : Opcode) : ofByte? op.byte = some op := by
  cases op <;> decide

theorem byte_injective {a b : Opcode} (h : a.byte = b.byte) : a = b := by
  have hb := congrArg ofByte? h
  rwa [ofByte?_byte, ofByte?_byte, Option.some.injEq] at hb

theorem byte_of_ofByte? {b : UInt8} {op : Opcode} (h : ofByte? b = some op) : op.byte = b := by
  simpa using List.find?_some h

theorem width_pos (op : Opcode) : 0 < op.width := by
  cases op <;> decide

end Opcode

end TracedMachine
