import TracedMachine.Instruction
import Mathlib.Logic.Basic

/-!
# Proofs — Assembler — Decode

Instructions are read from their own units.  The fields of a unit do not overlap: bytes, halves of a
byte and halves of a constant come out of it as they went in.  So the instruction at an address of
any code is the one whose units stand there (`decodeAt_units`), provided that registers that have
four bits only are below sixteen (`Instruction.Encodable`), and code that is made of instructions is
read back as them, one after the other up to its end (`Decodes.of_units`).
-/

namespace TracedMachine

/-! ### Fields -/

namespace CodeUnit

@[simp] theorem low_ofBytes (low high : UInt8) : (ofBytes low high).low = low := by
  apply UInt8.toNat_inj.mp
  simp [CodeUnit.low, ofBytes]

@[simp] theorem high_ofBytes (low high : UInt8) : (ofBytes low high).high = high := by
  have hlow := low.toNat_lt
  have hhigh := high.toNat_lt
  apply UInt8.toNat_inj.mp
  simp [CodeUnit.high, ofBytes]
  omega

/-- A unit is made of its bytes. -/
theorem ofBytes_low_high (u : CodeUnit) : ofBytes u.low u.high = u := by
  have hu := u.toNat_lt
  apply UInt16.toNat_inj.mp
  simp [CodeUnit.low, CodeUnit.high, ofBytes]
  omega

end CodeUnit

namespace Instruction

theorem nibbles_mod {a : UInt8} (ha : a < 16) (b : UInt8) : nibbles a b % 16 = a := by
  have ha : a.toNat < 16 := ha
  apply UInt8.toNat_inj.mp
  simp [nibbles]
  omega

theorem nibbles_div (a : UInt8) {b : UInt8} (hb : b < 16) : nibbles a b / 16 = b := by
  have hb : b.toNat < 16 := hb
  apply UInt8.toNat_inj.mp
  simp [nibbles]
  omega

/-- A byte is made of its halves. -/
theorem nibbles_mod_div (b : UInt8) : nibbles (b % 16) (b / 16) = b := by
  have hb := b.toNat_lt
  apply UInt8.toNat_inj.mp
  simp [nibbles]
  omega

theorem halves (bits : UInt32) :
    bits.toUInt16.toUInt32 + 65536 * (bits / 65536).toUInt16.toUInt32 = bits := by
  have hbits := bits.toNat_lt
  apply UInt32.toNat_inj.mp
  simp
  omega

theorem toNat_twoUnits (low high : CodeUnit) :
    (low.toUInt32 + 65536 * high.toUInt32).toNat = low.toNat + 65536 * high.toNat := by
  have hlow := low.toNat_lt
  have hhigh := high.toNat_lt
  simp
  omega

theorem low_twoUnits (low high : CodeUnit) :
    (low.toUInt32 + 65536 * high.toUInt32).toUInt16 = low := by
  have hlow := low.toNat_lt
  apply UInt16.toNat_inj.mp
  rw [UInt32.toNat_toUInt16, toNat_twoUnits]
  omega

theorem high_twoUnits (low high : CodeUnit) :
    ((low.toUInt32 + 65536 * high.toUInt32) / 65536).toUInt16 = high := by
  have hlow := low.toNat_lt
  have hhigh := high.toNat_lt
  have hbase : (65536 : UInt32).toNat = 65536 := rfl
  apply UInt16.toNat_inj.mp
  rw [UInt32.toNat_toUInt16, UInt32.toNat_div, toNat_twoUnits, hbase]
  omega

/-- The registers that have four bits are below sixteen. -/
def Encodable : Instruction → Prop
  | move a b | arrayLength a b | newArray a b _ => a < 16 ∧ b < 16
  | _ => True

instance : (i : Instruction) → Decidable i.Encodable
  | move a b | arrayLength a b | newArray a b _ => inferInstanceAs (Decidable (a < 16 ∧ b < 16))
  | nop | moveResult _ | moveException _ | returnVoid | returnValue _ | const .. | throwNew _
  | goto _ | ifZero .. | arrayGet .. | arrayPut .. | invoke .. | addInt .. => .isTrue trivial

theorem length_units (i : Instruction) : i.units.length = i.width := by
  cases i <;> rfl

theorem low_units (i : Instruction) (rest : List CodeUnit) :
    ((i.units ++ rest).getD 0 0).low = i.opcode.byte := by
  cases i <;> exact CodeUnit.low_ofBytes _ _

/-- Units that begin with those of an instruction have its operands. -/
theorem instruction_units {i : Instruction} (h : i.Encodable) (rest : List CodeUnit) :
    i.opcode.instruction ((i.units ++ rest).getD 0 0) ((i.units ++ rest).getD 1 0)
      ((i.units ++ rest).getD 2 0) = i := by
  cases i with
  | nop | returnVoid => rfl
  | move a b | arrayLength a b | newArray a b _ =>
      obtain ⟨ha, hb⟩ := h
      simp [units, opcode, Opcode.instruction, headUnit, nibbles_mod ha, nibbles_div a hb]
  | const dst value =>
      have hbits := halves value.toUInt32
      simp only [units, opcode, Opcode.instruction, headUnit, List.cons_append,
        List.getD_cons_zero, List.getD_cons_succ, CodeUnit.high_ofBytes, hbits, const.injEq]
      exact ⟨trivial, value.toInt32_toUInt32⟩
  | goto offset | ifZero src offset =>
      simp [units, opcode, Opcode.instruction, headUnit]
  | moveResult a | moveException a | returnValue a | throwNew a | invoke a b c =>
      simp [units, opcode, Opcode.instruction, headUnit]
  | arrayGet a b c | arrayPut a b c | addInt a b c =>
      simp [units, opcode, Opcode.instruction, headUnit]

end Instruction

/-! ### One instruction -/

/-- **An instruction is read from its units**, wherever they stand and whatever is around them. -/
theorem decodeAt_units {code : Array CodeUnit} {front rest : List CodeUnit} {i : Instruction}
    (hcode : code.toList = front ++ (i.units ++ rest)) (h : i.Encodable) :
    decodeAt code front.length = .ok i := by
  have hunit : ∀ k, code[front.length + k]? = (i.units ++ rest)[k]? := by
    intro k
    rw [← Array.getElem?_toList, hcode, List.getElem?_append_right (Nat.le_add_right _ _),
      Nat.add_sub_cancel_left]
  have hgetD : ∀ k, code.getD (front.length + k) 0 = (i.units ++ rest).getD k 0 := by
    intro k
    rw [Array.getD_eq_getD_getElem?, hunit, List.getD_eq_getElem?_getD]
  have hwidth : i.width ≤ (i.units ++ rest).length := by
    rw [List.length_append, i.length_units]
    omega
  have hsize : front.length + i.opcode.width ≤ code.size := by
    rw [← Array.length_toList, hcode, List.length_append]
    exact Nat.add_le_add_left hwidth _
  have hhead : code[front.length]? = some ((i.units ++ rest).getD 0 0) := by
    have hpos := Nat.lt_of_lt_of_le i.width_pos hwidth
    rw [← Nat.add_zero front.length, hunit, List.getElem?_eq_getElem hpos,
      List.getD_eq_getElem?_getD, List.getElem?_eq_getElem hpos]
    rfl
  unfold decodeAt
  simp only [hhead, i.low_units, Opcode.ofByte?_byte, if_pos hsize, hgetD, i.instruction_units h]

/-! ### Code -/

/-- A line of code: an address, and the operation and the operands that are read there. -/
structure CodeLine where
  address : Nat
  opcode : Opcode
  operands : List Int
deriving DecidableEq, Repr

/-- Code is read from an address on, each instruction after the one before it, without an error and
up to the end of the code. -/
inductive Decodes (code : Array CodeUnit) : Nat → List CodeLine → Prop where
  | done : Decodes code code.size []
  | next {pc : Nat} {i : Instruction} {lines : List CodeLine} (read : decodeAt code pc = .ok i)
      (rest : Decodes code (pc + i.width) lines) :
      Decodes code pc (⟨pc, i.opcode, i.operands⟩ :: lines)

namespace Instruction

/-- The units of a list of instructions. -/
def code (is : List Instruction) : List CodeUnit := is.flatMap units

/-- The lines of a list of instructions, the first of which has an address. -/
def lines : Nat → List Instruction → List CodeLine
  | _, [] => []
  | pc, i :: is => ⟨pc, i.opcode, i.operands⟩ :: lines (pc + i.width) is

theorem code_append (is js : List Instruction) : code (is ++ js) = code is ++ code js :=
  List.flatMap_append

theorem code_cons (i : Instruction) (is : List Instruction) : code (i :: is) = i.units ++ code is :=
  List.flatMap_cons

theorem lines_append (pc : Nat) (is js : List Instruction) :
    lines pc (is ++ js) = lines pc is ++ lines (pc + (code is).length) js := by
  induction is generalizing pc with
  | nil => rfl
  | cons i is ih =>
      rw [List.cons_append, lines, lines, ih, code_cons, List.length_append, i.length_units,
        Nat.add_assoc]
      rfl

theorem lines_eq_cons {pc : Nat} {is : List Instruction} {x : CodeLine} {rest : List CodeLine}
    (h : lines pc is = x :: rest) :
    ∃ i js, is = i :: js ∧ x = ⟨pc, i.opcode, i.operands⟩ ∧ lines (pc + i.width) js = rest := by
  cases is with
  | nil => cases h
  | cons i js =>
      obtain ⟨hx, hrest⟩ := List.cons.inj h
      exact ⟨i, js, rfl, hx.symm, hrest⟩

end Instruction

/-- **Code made of instructions is read back as them.** -/
theorem Decodes.of_units {code : Array CodeUnit} {is : List Instruction} {front : List CodeUnit}
    (hcode : code.toList = front ++ Instruction.code is) (h : ∀ i ∈ is, i.Encodable) :
    Decodes code front.length (Instruction.lines front.length is) := by
  induction is generalizing front with
  | nil =>
      have hend : front.length = code.size := by
        rw [← Array.length_toList, hcode, List.length_append]
        rfl
      rw [hend]
      exact .done
  | cons i is ih =>
      rw [Instruction.code_cons] at hcode
      have hread := decodeAt_units hcode (h i List.mem_cons_self)
      rw [← List.append_assoc] at hcode
      have hrest := ih hcode fun j hj => h j (List.mem_cons_of_mem i hj)
      rw [List.length_append, i.length_units] at hrest
      exact .next hread hrest

end TracedMachine
