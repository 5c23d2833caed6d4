import TracedMachine.Proofs.Assembler.Decode

/-!
# Proofs — Assembler — Reading

Reading an instruction at any address of any code.  There is one if the unit there holds an
operation and the code goes on for as many units as the operation takes (`decodeAt_outside`,
`decodeAt_unknown`, `decodeAt_short` and `decodeAt_known` are all that can happen).  The units after
those have no say (`decodeAt_congr`), and those have: an instruction with operands is written as it
was read (`Opcode.units_instruction`), so its units can be told from it.

Which units are looked at is not visible in an answer.  `CodeProbe.decode` is the same reading as a
tree of questions, each for the unit at an address, which fails if there is none; it asks for the
units of the instruction one after the other and for nothing else (`CodeProbe.run_decode`).

**Reading** (`decoding_is_local_and_lossless`).  Where there is an instruction, what is read and
what it tells of the code, in one statement.
-/

namespace TracedMachine

/-! ### What can happen -/

section

variable {code : Array CodeUnit} {pc : Nat} {head : CodeUnit} {op : Opcode}

theorem decodeAt_outside (h : code[pc]? = none) : decodeAt code pc = .error (.truncated pc) := by
  simp only [decodeAt, h]

theorem decodeAt_unknown (h : code[pc]? = some head) (hop : Opcode.ofByte? head.low = none) :
    decodeAt code pc = .error (.unknownOpcode head.low pc) := by
  simp only [decodeAt, h, hop]

theorem decodeAt_short (h : code[pc]? = some head) (hop : Opcode.ofByte? head.low = some op)
    (hshort : ¬ pc + op.width ≤ code.size) : decodeAt code pc = .error (.truncated pc) := by
  simp only [decodeAt, h, hop, if_neg hshort]

theorem decodeAt_known (h : code[pc]? = some head) (hop : Opcode.ofByte? head.low = some op)
    (hfits : pc + op.width ≤ code.size) :
    decodeAt code pc =
      .ok (op.instruction head (code.getD (pc + 1) 0) (code.getD (pc + 2) 0)) := by
  simp only [decodeAt, h, hop, if_pos hfits]

/-- The units of an operation are there if the code goes on for them. -/
theorem getElem?_of_fits (hfits : pc + op.width ≤ code.size) {k : Nat} (hk : k < op.width) :
    code[pc + k]? = some (code.getD (pc + k) 0) := by
  have hlt : pc + k < code.size := by omega
  rw [Array.getD_eq_getD_getElem?, Array.getElem?_eq_getElem hlt, Option.getD_some]

/-- Where there is an instruction, and which. -/
theorem decodeAt_eq_ok_iff {i : Instruction} :
    decodeAt code pc = .ok i ↔
      ∃ head op, code[pc]? = some head ∧ Opcode.ofByte? head.low = some op ∧
        pc + op.width ≤ code.size ∧
        op.instruction head (code.getD (pc + 1) 0) (code.getD (pc + 2) 0) = i := by
  cases h : code[pc]? with
  | none => simp [decodeAt_outside h]
  | some head =>
      cases hop : Opcode.ofByte? head.low with
      | none => simp [decodeAt_unknown h hop, hop]
      | some op =>
          by_cases hfits : pc + op.width ≤ code.size
          · simp [decodeAt_known h hop hfits, hop, hfits]
          · simp [decodeAt_short h hop hfits, hop, hfits]

/-- Where there is none, and why: an operation that is not known is reported before the end of the
code is looked at. -/
theorem decodeAt_eq_error_iff {e : DecodeError} :
    decodeAt code pc = .error e ↔
      (∃ head, code[pc]? = some head ∧ Opcode.ofByte? head.low = none ∧
        e = .unknownOpcode head.low pc) ∨
      e = .truncated pc ∧ (code.size ≤ pc ∨
        ∃ head op, code[pc]? = some head ∧ Opcode.ofByte? head.low = some op ∧
          code.size < pc + op.width) := by
  cases h : code[pc]? with
  | none =>
      have hend := Array.getElem?_eq_none_iff.mp h
      simp [decodeAt_outside h, hend, eq_comm]
  | some head =>
      have hin : ¬ code.size ≤ pc := Nat.not_le.mpr (Array.getElem?_eq_some_iff.mp h).1
      cases hop : Opcode.ofByte? head.low with
      | none => simp [decodeAt_unknown h hop, hop, hin, eq_comm]
      | some op =>
          by_cases hfits : pc + op.width ≤ code.size
          · simp [decodeAt_known h hop hfits, hop, hin, hfits]
          · simp [decodeAt_short h hop hfits, hop, hin, Nat.not_le.mp hfits, eq_comm]

end

/-! ### Locality -/

/-- The units that matter at an address: as many as the operation there takes, or only one if the
operation is not known. -/
def widthAt (code : Array CodeUnit) (pc : Nat) : Nat :=
  ((code[pc]?.bind fun head => Opcode.ofByte? head.low).map Opcode.width).getD 1

theorem widthAt_of_known {code : Array CodeUnit} {pc : Nat} {head : CodeUnit} {op : Opcode}
    (h : code[pc]? = some head) (hop : Opcode.ofByte? head.low = some op) :
    widthAt code pc = op.width := by
  simp only [widthAt, h, Option.bind_some, hop, Option.map_some, Option.getD_some]

theorem widthAt_pos (code : Array CodeUnit) (pc : Nat) : 0 < widthAt code pc := by
  unfold widthAt
  cases code[pc]?.bind fun head => Opcode.ofByte? head.low with
  | none => exact Nat.one_pos
  | some op => exact op.width_pos

theorem widthAt_of_decodeAt {code : Array CodeUnit} {pc : Nat} {i : Instruction}
    (h : decodeAt code pc = .ok i) : widthAt code pc = i.width := by
  obtain ⟨head, op, hhead, hop, -, rfl⟩ := decodeAt_eq_ok_iff.mp h
  rw [widthAt_of_known hhead hop, Instruction.width, Opcode.opcode_instruction]

/-- Operands come from as many units as the operation takes. -/
theorem Opcode.instruction_congr {op : Opcode} {head second third second' third' : CodeUnit}
    (hsecond : 1 < op.width → second = second') (hthird : 2 < op.width → third = third') :
    op.instruction head second third = op.instruction head second' third' := by
  cases op with
  | nop | move | moveResult | moveException | returnVoid | returnValue | arrayLength | throwNew
  | goto => rfl
  | newArray | ifZero | arrayGet | arrayPut | addInt => rw [hsecond (by decide)]; rfl
  | const | invoke => rw [hsecond (by decide), hthird (by decide)]

/-- **Locality.**  Two places with the same units hold the same instruction or none. -/
theorem decodeAt_congr {code code' : Array CodeUnit} {pc pc' : Nat}
    (h : ∀ k < widthAt code pc, code'[pc' + k]? = code[pc + k]?) (i : Instruction) :
    decodeAt code' pc' = .ok i ↔ decodeAt code pc = .ok i := by
  have hhead : code'[pc']? = code[pc]? := h 0 (widthAt_pos code pc)
  cases hunit : code[pc]? with
  | none =>
      rw [hunit] at hhead
      simp [decodeAt_outside hunit, decodeAt_outside hhead]
  | some head =>
      rw [hunit] at hhead
      cases hop : Opcode.ofByte? head.low with
      | none => simp [decodeAt_unknown hunit hop, decodeAt_unknown hhead hop]
      | some op =>
          rw [widthAt_of_known hunit hop] at h
          have hgetD : ∀ k < op.width, code'.getD (pc' + k) 0 = code.getD (pc + k) 0 := by
            intro k hk
            rw [Array.getD_eq_getD_getElem?, Array.getD_eq_getD_getElem?, h k hk]
          have hinstruction :
              op.instruction head (code'.getD (pc' + 1) 0) (code'.getD (pc' + 2) 0) =
                op.instruction head (code.getD (pc + 1) 0) (code.getD (pc + 2) 0) :=
            Opcode.instruction_congr (hgetD 1) (hgetD 2)
          -- the codes go on for long enough if they have the last of the units
          have hpos := op.width_pos
          have hlast := h (op.width - 1) (by omega)
          have hend : code'.size ≤ pc' + (op.width - 1) ↔ code.size ≤ pc + (op.width - 1) := by
            rw [← Array.getElem?_eq_none_iff, ← Array.getElem?_eq_none_iff, hlast]
          have hfits : pc' + op.width ≤ code'.size ↔ pc + op.width ≤ code.size := by omega
          by_cases hlong : pc + op.width ≤ code.size
          · rw [decodeAt_known hunit hop hlong, decodeAt_known hhead hop (hfits.mpr hlong),
              hinstruction]
          · have hlong' := mt hfits.mp hlong
            simp [decodeAt_short hunit hop hlong, decodeAt_short hhead hop hlong']

/-! ### Units from instructions -/

/-- The operation takes no operands. -/
def Instruction.IsBare (i : Instruction) : Prop := i = .nop ∨ i = .returnVoid

/-- **What was read is written as it was**, unless the operation takes no operands. -/
theorem Opcode.units_instruction {op : Opcode} {head : CodeUnit} (hlow : head.low = op.byte)
    (second third : CodeUnit) (h : ¬ (op.instruction head second third).IsBare) :
    (op.instruction head second third).units = [head, second, third].take op.width := by
  have hhead : Instruction.headUnit op head.high = head := by
    rw [Instruction.headUnit, ← hlow, CodeUnit.ofBytes_low_high]
  have hnibbles := Instruction.nibbles_mod_div head.high
  cases op with
  | nop => exact absurd (.inl rfl) h
  | returnVoid => exact absurd (.inr rfl) h
  | move | arrayLength | newArray =>
      simp [instruction, Instruction.units, Instruction.opcode, width, hnibbles, hhead]
  | moveResult | moveException | returnValue | throwNew | invoke =>
      simp [instruction, Instruction.units, Instruction.opcode, width, hhead]
  | goto | ifZero =>
      simp [instruction, Instruction.units, Instruction.opcode, width, hhead]
  | arrayGet | arrayPut | addInt =>
      simp [instruction, Instruction.units, Instruction.opcode, width, hhead,
        CodeUnit.ofBytes_low_high]
  | const =>
      simp only [instruction, Instruction.units, Instruction.opcode, hhead,
        UInt32.toUInt32_toInt32, Instruction.low_twoUnits, Instruction.high_twoUnits]
      rfl

/-- The units of an instruction that takes operands are those that it is written with. -/
theorem units_of_decodeAt {code : Array CodeUnit} {pc : Nat} {i : Instruction}
    (h : decodeAt code pc = .ok i) (hbare : ¬ i.IsBare) {k : Nat} (hk : k < i.width) :
    code[pc + k]? = i.units[k]? := by
  obtain ⟨head, op, hhead, hop, hfits, rfl⟩ := decodeAt_eq_ok_iff.mp h
  rw [Instruction.width, Opcode.opcode_instruction] at hk
  have hwidth : op.width ≤ 3 := by cases op <;> decide
  have hunit := getElem?_of_fits hfits hk
  have hlow := (Opcode.byte_of_ofByte? hop).symm
  rw [Opcode.units_instruction hlow _ _ hbare, List.getElem?_take_of_lt hk]
  obtain rfl | rfl | rfl : k = 0 ∨ k = 1 ∨ k = 2 := by omega
  · exact hhead
  · exact hunit
  · exact hunit

/-- The operation can be told from the low byte of the first unit. -/
theorem low_of_decodeAt {code : Array CodeUnit} {pc : Nat} {i : Instruction}
    (h : decodeAt code pc = .ok i) : code[pc]?.map CodeUnit.low = some i.opcode.byte := by
  obtain ⟨head, op, hhead, hop, -, rfl⟩ := decodeAt_eq_ok_iff.mp h
  rw [hhead, Option.map_some, Opcode.opcode_instruction, Opcode.byte_of_ofByte? hop]

/-- Of an operation without operands there is no more to be told. -/
theorem decodeAt_of_isBare {code : Array CodeUnit} {pc : Nat} {i : Instruction} (hbare : i.IsBare)
    (hlow : code[pc]?.map CodeUnit.low = some i.opcode.byte) : decodeAt code pc = .ok i := by
  obtain ⟨head, hhead, hbyte⟩ := Option.map_eq_some_iff.mp hlow
  have hop : Opcode.ofByte? head.low = some i.opcode := by rw [hbyte, Opcode.ofByte?_byte]
  have hin : pc + 1 ≤ code.size := (Array.getElem?_eq_some_iff.mp hhead).1
  obtain rfl | rfl := hbare
  · exact decodeAt_known hhead hop hin
  · exact decodeAt_known hhead hop hin

/-! ### Units that are looked at -/

/-- Questions about code: an answer, or an address and what the unit there leads to. -/
inductive CodeProbe (α : Type) where
  | answer (a : α)
  | ask (address : Nat) (next : CodeUnit → CodeProbe α)

namespace CodeProbe

/-- The answer for a code, and the addresses that were asked for; there is none if one of them is
outside the code. -/
def run {α : Type} (code : Array CodeUnit) : CodeProbe α → Option (α × List Nat)
  | answer a => some (a, [])
  | ask address next =>
    code[address]?.bind fun u =>
      ((next u).run code).map fun done => (done.1, address :: done.2)

/-- The operands of an operation at `pc`. -/
def operands (op : Opcode) (head : CodeUnit) (pc : Nat) :
    CodeProbe (Except DecodeError Instruction) :=
  match op.width with
  | 1 => answer (.ok (op.instruction head 0 0))
  | 2 => ask (pc + 1) fun second => answer (.ok (op.instruction head second 0))
  | _ =>
    ask (pc + 1) fun second =>
      ask (pc + 2) fun third => answer (.ok (op.instruction head second third))

/-- The instruction at `pc` in a code of some size. -/
def decode (size pc : Nat) : CodeProbe (Except DecodeError Instruction) :=
  if pc < size then
    ask pc fun head =>
      match Opcode.ofByte? head.low with
      | none => answer (.error (.unknownOpcode head.low pc))
      | some op =>
        if pc + op.width ≤ size then operands op head pc else answer (.error (.truncated pc))
  else answer (.error (.truncated pc))

/-- Operands are asked for in the units after the first, and there are no others. -/
theorem run_operands {code : Array CodeUnit} {pc : Nat} {op : Opcode}
    (hfits : pc + op.width ≤ code.size) (head : CodeUnit) :
    (operands op head pc).run code =
      some (.ok (op.instruction head (code.getD (pc + 1) 0) (code.getD (pc + 2) 0)),
        List.range' (pc + 1) (op.width - 1)) := by
  have hunit : ∀ k < op.width, code[pc + k]? = some (code.getD (pc + k) 0) :=
    fun k hk => getElem?_of_fits hfits hk
  have hwidth : op.width = 1 ∨ op.width = 2 ∨ op.width = 3 := by cases op <;> decide
  unfold operands
  rcases hwidth with hone | htwo | hthree
  · have hsame : op.instruction head 0 0 =
        op.instruction head (code.getD (pc + 1) 0) (code.getD (pc + 2) 0) :=
      Opcode.instruction_congr (by omega) (by omega)
    simp only [hone, hsame]
    rfl
  · have hsame : op.instruction head (code.getD (pc + 1) 0) 0 =
        op.instruction head (code.getD (pc + 1) 0) (code.getD (pc + 2) 0) :=
      Opcode.instruction_congr (fun _ => rfl) (by omega)
    simp only [htwo, run, hunit 1 (by omega), Option.bind_some, Option.map_some, hsame]
    rfl
  · simp only [hthree, run, hunit 1 (by omega), hunit 2 (by omega), Option.bind_some,
      Option.map_some]
    rfl

/-- **Only the units of the instruction are looked at**, and all of them are there.  If there is no
instruction, no more than its first unit is. -/
theorem run_decode (code : Array CodeUnit) (pc : Nat) :
    ∃ n, (decode code.size pc).run code = some (decodeAt code pc, List.range' pc n) ∧
      (∀ i, decodeAt code pc = .ok i → n = i.width) ∧
      ∀ e, decodeAt code pc = .error e → n ≤ 1 := by
  cases h : code[pc]? with
  | none =>
      have hout : ¬ pc < code.size := Nat.not_lt.mpr (Array.getElem?_eq_none_iff.mp h)
      rw [decodeAt_outside h, decode, if_neg hout]
      exact ⟨0, rfl, by simp, by simp⟩
  | some head =>
      have hin : pc < code.size := (Array.getElem?_eq_some_iff.mp h).1
      rw [decode, if_pos hin, run, h, Option.bind_some]
      cases hop : Opcode.ofByte? head.low with
      | none =>
          rw [decodeAt_unknown h hop]
          exact ⟨1, rfl, by simp, by simp⟩
      | some op =>
          by_cases hfits : pc + op.width ≤ code.size
          · obtain ⟨more, hmore⟩ := Nat.exists_eq_add_one.mpr op.width_pos
            rw [decodeAt_known h hop hfits]
            refine ⟨op.width, ?_, ?_, by simp⟩
            · simp only [if_pos hfits, run_operands hfits, Option.map_some]
              rw [hmore]
              rfl
            · rintro i ⟨⟩
              rw [Instruction.width, Opcode.opcode_instruction]
          · rw [decodeAt_short h hop hfits]
            simp only [if_neg hfits]
            exact ⟨1, rfl, by simp, by simp⟩

end CodeProbe

/-! ### Reading -/

/-- **Decoding is complete, local and lossless.**  At any address of any code there is an
instruction if and only if the address is in the code, the low byte there is an operation and the
code goes on for its units; what is wrong otherwise is said, and an operation that is not known
comes first.  Exactly these units are looked at, and none outside the code.  Other code with the
same units at some address has the same instruction there, or none as well.  Two places with the
same instruction have the same units, but for the high byte of operations without operands, which
may be any. -/
theorem decoding_is_local_and_lossless (code : Array CodeUnit) (pc : Nat) :
    ((∃ i, decodeAt code pc = .ok i) ↔
      ∃ head op, code[pc]? = some head ∧ Opcode.ofByte? head.low = some op ∧
        pc + op.width ≤ code.size) ∧
    (∀ e, decodeAt code pc = .error e ↔
      (∃ head, code[pc]? = some head ∧ Opcode.ofByte? head.low = none ∧
        e = .unknownOpcode head.low pc) ∨
      e = .truncated pc ∧ (code.size ≤ pc ∨
        ∃ head op, code[pc]? = some head ∧ Opcode.ofByte? head.low = some op ∧
          code.size < pc + op.width)) ∧
    (∃ n, (CodeProbe.decode code.size pc).run code =
        some (decodeAt code pc, List.range' pc n) ∧
      (∀ i, decodeAt code pc = .ok i → n = i.width) ∧
      ∀ e, decodeAt code pc = .error e → n ≤ 1) ∧
    (∀ (code' : Array CodeUnit) (pc' : Nat),
      (∀ k < widthAt code pc, code'[pc' + k]? = code[pc + k]?) →
      ∀ i, decodeAt code' pc' = .ok i ↔ decodeAt code pc = .ok i) ∧
    ∀ i, decodeAt code pc = .ok i →
      widthAt code pc = i.width ∧
      (¬ i.IsBare → ∀ (code' : Array CodeUnit) (pc' : Nat), decodeAt code' pc' = .ok i →
        ∀ k < i.width, code'[pc' + k]? = code[pc + k]?) ∧
      (i.IsBare → ∀ (code' : Array CodeUnit) (pc' : Nat), decodeAt code' pc' = .ok i ↔
        code'[pc']?.map CodeUnit.low = code[pc]?.map CodeUnit.low) := by
  refine ⟨?_, fun e => decodeAt_eq_error_iff, CodeProbe.run_decode code pc,
    fun code' pc' h => decodeAt_congr h, fun i hi => ⟨widthAt_of_decodeAt hi, ?_, ?_⟩⟩
  · constructor
    · rintro ⟨i, hi⟩
      obtain ⟨head, op, hhead, hop, hfits, -⟩ := decodeAt_eq_ok_iff.mp hi
      exact ⟨head, op, hhead, hop, hfits⟩
    · rintro ⟨head, op, hhead, hop, hfits⟩
      exact ⟨_, decodeAt_eq_ok_iff.mpr ⟨head, op, hhead, hop, hfits, rfl⟩⟩
  · intro hbare code' pc' hi' k hk
    rw [units_of_decodeAt hi' hbare hk, units_of_decodeAt hi hbare hk]
  · intro hbare code' pc'
    rw [low_of_decodeAt hi]
    exact ⟨low_of_decodeAt, decodeAt_of_isBare hbare⟩

example :
    decodeAt #[0x00ff] 0 = .error (.unknownOpcode 0xff 0) ∧
      decodeAt #[0x0023] 0 = .error (.truncated 0) ∧ decodeAt #[] 0 = .error (.truncated 0) ∧
      decodeAt #[0x120e] 0 = .ok .returnVoid ∧ decodeAt #[0x000e] 0 = .ok .returnVoid :=
  ⟨rfl, rfl, rfl, rfl, rfl⟩

end TracedMachine
