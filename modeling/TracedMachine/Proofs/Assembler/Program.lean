import TracedMachine.Assembler
import TracedMachine.Proofs.Assembler.Decode
import Mathlib.Algebra.GroupWithZero.Nat
import Mathlib.Data.List.Induction

/-!
# Proofs — Assembler — Program

What the calls of an assembler assemble.  A list of calls has a site for each call, the address at
which it is made (`sites`), and a program: one line for each call that emits, at its site, with the
operands it was given (`program`).  The offset of a branch that waits for its target is the distance
to where its label is bound, or zero if it is not bound.

* Every call either goes on by its width or is refused for a distance that its offset cannot hold
  (`Assembler.call_cases`), so a list of calls is refused for the first such distance
  (`run_eq_error_iff`).
* Code stands for lines when it is made of their instructions (`Assembler.StandsFor`).  An emitting
  call adds a line; binding a label writes into the units of its own branch, wherever that stands
  between the others, and into no other (`StandsFor.bind`).
* If labels are bound at most once, after the calls that made them (`BindsOnce`), what was assembled
  is read back as the program (`Assembler.assembly_is_decoded`).

A `goto` to a known address takes the distance on words of 64 bits.  It is the difference of the two
addresses as long as that has 64 bits; beyond, a target near the end of the address space counts as
one just before address zero (`Assembler.gotoBack_wraps`).
-/

namespace TracedMachine

/-- A call of an assembler. -/
inductive AssemblerCall where
  /-- Emits an instruction. -/
  | emit (i : Instruction)
  /-- Emits a `goto` that waits for its target. -/
  | goto
  /-- Emits an `if-eqz` that waits for its target. -/
  | ifZero (src : UInt8)
  /-- Emits a `goto` to an address. -/
  | gotoBack (target : Nat)
  /-- Points a waiting branch at the current address. -/
  | bind (label : Label)
deriving DecidableEq, Repr

/-- Makes a call. -/
def Assembler.call (a : Assembler) : AssemblerCall → Except BranchError Assembler
  | .emit i => .ok (a.emit i)
  | .goto => .ok a.goto.1
  | .ifZero src => .ok (a.ifZero src).1
  | .gotoBack target => a.gotoBack target
  | .bind label => a.bind label

/-- Makes calls, up to the first that is refused. -/
def Assembler.run (a : Assembler) (calls : List AssemblerCall) : Except BranchError Assembler :=
  calls.foldlM call a

/-! ### Distances -/

namespace BranchKind

/-- The offset of the branch holds a distance. -/
def Holds : BranchKind → Int → Prop
  | goto, d => -128 ≤ d ∧ d ≤ 127
  | ifZero, d => -32768 ≤ d ∧ d ≤ 32767

instance : (kind : BranchKind) → (d : Int) → Decidable (kind.Holds d)
  | goto, d => inferInstanceAs (Decidable (-128 ≤ d ∧ d ≤ 127))
  | ifZero, d => inferInstanceAs (Decidable (-32768 ≤ d ∧ d ≤ 32767))

/-- Why a distance is refused that the offset does not hold. -/
def tooFar : BranchKind → BranchError
  | goto => .gotoTooFar
  | ifZero => .ifZeroTooFar

/-- Why a distance is refused, if it is. -/
def refusal? (kind : BranchKind) (d : Int) : Option BranchError :=
  if kind.Holds d then none else some kind.tooFar

end BranchKind

/-- The distance from an address to a target on words of 64 bits, as a signed word. -/
def wordDistance (address target : Nat) : Int :=
  ((target : Int) - address).bmod 0x10000000000000000

theorem wordDistance_eq {address target : Nat} (hback : address ≤ target + 2 ^ 63)
    (hahead : target < address + 2 ^ 63) : wordDistance address target = target - address := by
  apply Int.bmod_eq_of_le_mul_two <;> omega

theorem int8?_cases (d : Int) :
    (BranchKind.goto.Holds d ∧ ∃ offset : Int8, int8? d = some offset ∧ offset.toInt = d) ∨
      ¬ BranchKind.goto.Holds d ∧ int8? d = none := by
  by_cases h : -128 ≤ d ∧ d ≤ 127
  · refine .inl ⟨h, Int8.ofInt d, if_pos h, ?_⟩
    exact Int8.toInt_ofInt_of_le (by omega) (by omega)
  · exact .inr ⟨h, if_neg h⟩

theorem int16?_cases (d : Int) :
    (BranchKind.ifZero.Holds d ∧ ∃ offset : Int16, int16? d = some offset ∧ offset.toInt = d) ∨
      ¬ BranchKind.ifZero.Holds d ∧ int16? d = none := by
  by_cases h : -32768 ≤ d ∧ d ≤ 32767
  · refine .inl ⟨h, Int16.ofInt d, if_pos h, ?_⟩
    exact Int16.toInt_ofInt_of_le (by omega) (by omega)
  · exact .inr ⟨h, if_neg h⟩

/-! ### Sites and programs -/

namespace AssemblerCall

/-- The number of units a call emits. -/
def width : AssemblerCall → Nat
  | emit i => i.width
  | goto | gotoBack _ => Opcode.goto.width
  | ifZero _ => Opcode.ifZero.width
  | bind _ => 0

/-- The label that a call at an address makes. -/
def label? (address : Nat) : AssemblerCall → Option Label
  | goto => some ⟨address, .goto⟩
  | ifZero _ => some ⟨address, .ifZero⟩
  | _ => none

/-- The line that a call at an address emits, for given distances from branches to targets. -/
def line? (far : Label → Int) (address : Nat) : AssemblerCall → Option CodeLine
  | emit i => some ⟨address, i.opcode, i.operands⟩
  | goto => some ⟨address, .goto, [far ⟨address, .goto⟩]⟩
  | ifZero src => some ⟨address, .ifZero, [src.toNat, far ⟨address, .ifZero⟩]⟩
  | gotoBack target => some ⟨address, .goto, [wordDistance address target]⟩
  | bind _ => none

/-- Why a call at an address is refused, if it is. -/
def refusal? (address : Nat) : AssemblerCall → Option BranchError
  | gotoBack target => BranchKind.goto.refusal? (wordDistance address target)
  | bind label => label.kind.refusal? ((address : Int) - label.address)
  | _ => none

/-- Calls, each with the address at which it is made; the first has the given one. -/
def sites : Nat → List AssemblerCall → List (Nat × AssemblerCall)
  | _, [] => []
  | address, c :: calls => (address, c) :: sites (address + c.width) calls

/-- The number of units that calls emit. -/
def size (calls : List AssemblerCall) : Nat := (calls.map width).sum

/-- The labels that calls make. -/
def labels (address : Nat) (calls : List AssemblerCall) : List Label :=
  (sites address calls).filterMap fun s => s.2.label? s.1

/-- The lines that calls emit, for given distances. -/
def lines (far : Label → Int) (address : Nat) (calls : List AssemblerCall) : List CodeLine :=
  (sites address calls).filterMap fun s => s.2.line? far s.1

/-- The address at which a label is bound. -/
def boundAt? (calls : List AssemblerCall) (l : Label) : Option Nat :=
  ((sites 0 calls).find? (·.2 == .bind l)).map (·.1)

/-- The distance from a branch to where its label is bound; zero if it is not bound. -/
def distance (calls : List AssemblerCall) (l : Label) : Int :=
  match boundAt? calls l with
  | some target => (target : Int) - l.address
  | none => 0

/-- The program of a list of calls. -/
def program (calls : List AssemblerCall) : List CodeLine := lines (distance calls) 0 calls

/-- Every label that is bound was made by an earlier call and was not bound before. -/
def BindsOnce (calls : List AssemblerCall) : Prop :=
  ∀ before l after, calls = before ++ .bind l :: after → l ∈ labels 0 before ∧ .bind l ∉ before

/-- The label that a call binds. -/
def bound? : AssemblerCall → Option Label
  | bind l => some l
  | _ => none

theorem bindsOnce_iff {calls : List AssemblerCall} :
    BindsOnce calls ↔ ∀ n < calls.length, ∀ l ∈ calls[n]?.bind bound?,
      l ∈ labels 0 (calls.take n) ∧ .bind l ∉ calls.take n := by
  constructor
  · intro h n hn l hl
    obtain ⟨c, hc, hbound⟩ := Option.bind_eq_some_iff.mp hl
    cases c with
    | bind l' =>
        cases hbound
        have hget : calls[n] = .bind l := (List.getElem?_eq_some_iff.mp hc).2
        refine h _ l (calls.drop (n + 1)) ?_
        rw [← hget, List.getElem_cons_drop, List.take_append_drop]
    | emit | goto | ifZero | gotoBack => cases hbound
  · rintro h before l after rfl
    have hl := h before.length (by simp) l (by simp [bound?])
    rwa [List.take_left] at hl

instance (calls : List AssemblerCall) : Decidable (BindsOnce calls) :=
  decidable_of_iff _ bindsOnce_iff.symm

theorem sites_append (address : Nat) (calls more : List AssemblerCall) :
    sites address (calls ++ more) = sites address calls ++ sites (address + size calls) more := by
  induction calls generalizing address with
  | nil => rfl
  | cons c calls ih =>
      simp only [List.cons_append, sites, ih, size, List.map_cons, List.sum_cons, Nat.add_assoc]

theorem length_sites (address : Nat) (calls : List AssemblerCall) :
    (sites address calls).length = calls.length := by
  induction calls generalizing address with
  | nil => rfl
  | cons c calls ih => rw [sites, List.length_cons, List.length_cons, ih]

theorem lines_append (far : Label → Int) (address : Nat) (calls more : List AssemblerCall) :
    lines far address (calls ++ more) =
      lines far address calls ++ lines far (address + size calls) more := by
  simp only [lines, sites_append, List.filterMap_append]

theorem labels_cons (address : Nat) (c : AssemblerCall) (calls : List AssemblerCall) :
    labels address (c :: calls) =
      (c.label? address).toList ++ labels (address + c.width) calls := by
  unfold labels
  rw [sites]
  cases h : c.label? address <;> simp [h]

theorem lines_cons (far : Label → Int) (address : Nat) (c : AssemblerCall)
    (calls : List AssemblerCall) :
    lines far address (c :: calls) =
      (c.line? far address).toList ++ lines far (address + c.width) calls := by
  unfold lines
  rw [sites]
  cases h : c.line? far address <;> simp [h]

theorem label?_eq_some {c : AssemblerCall} {address : Nat} {l : Label}
    (h : c.label? address = some l) : l.address = address ∧ 0 < c.width := by
  cases c with
  | goto => cases h; exact ⟨rfl, Opcode.goto.width_pos⟩
  | ifZero => cases h; exact ⟨rfl, Opcode.ifZero.width_pos⟩
  | emit | gotoBack | bind => cases h

/-- A label stands for a branch among the units that the calls emit. -/
theorem address_of_mem_labels {calls : List AssemblerCall} {address : Nat} {l : Label}
    (h : l ∈ labels address calls) : address ≤ l.address ∧ l.address < address + size calls := by
  induction calls generalizing address with
  | nil => cases h
  | cons c calls ih =>
      have hsize : size (c :: calls) = c.width + size calls := by simp [size]
      rw [labels_cons, List.mem_append, Option.mem_toList] at h
      rcases h with h | h
      · obtain ⟨haddress, hwidth⟩ := label?_eq_some h
        omega
      · have hbounds := ih h
        omega

/-- A line depends on the distances of labels that stand at its address. -/
theorem line?_congr {far far' : Label → Int} {address : Nat}
    (h : ∀ l, l.address = address → far' l = far l) (c : AssemblerCall) :
    c.line? far' address = c.line? far address := by
  cases c with
  | goto => simp only [line?, h ⟨address, .goto⟩ rfl]
  | ifZero => simp only [line?, h ⟨address, .ifZero⟩ rfl]
  | emit | gotoBack | bind => rfl

theorem lines_congr {far far' : Label → Int} {address : Nat} (calls : List AssemblerCall)
    (h : ∀ l, address ≤ l.address → far' l = far l) :
    lines far' address calls = lines far address calls := by
  induction calls generalizing address with
  | nil => rfl
  | cons c calls ih =>
      rw [lines_cons, lines_cons, line?_congr fun l hl => h l (Nat.le_of_eq hl.symm),
        ih fun l hl => h l (Nat.le_trans (Nat.le_add_right _ _) hl)]

/-- A line is as wide as its call. -/
theorem width_of_line? {far : Label → Int} {address : Nat} {c : AssemblerCall} {x : CodeLine}
    (h : c.line? far address = some x) : x.opcode.width = c.width := by
  cases c with
  | emit | goto | ifZero | gotoBack => cases h; rfl
  | bind => cases h

theorem line?_eq_none {far : Label → Int} {address : Nat} {c : AssemblerCall}
    (h : c.line? far address = none) : ∃ l, c = .bind l := by
  cases c with
  | emit | goto | ifZero | gotoBack => cases h
  | bind l => exact ⟨l, rfl⟩

/-! ### Where labels are bound -/

theorem boundAt?_concat (calls : List AssemblerCall) (c : AssemblerCall) (l : Label) :
    boundAt? (calls ++ [c]) l =
      (boundAt? calls l).or (if c = .bind l then some (size calls) else none) := by
  unfold boundAt?
  rw [sites_append, List.find?_append, Option.map_or, Nat.zero_add]
  by_cases h : c = .bind l <;> simp [sites, h]

theorem boundAt?_eq_none {calls : List AssemblerCall} {l : Label} (h : .bind l ∉ calls) :
    boundAt? calls l = none := by
  induction calls using List.reverseRecOn with
  | nil => rfl
  | append_singleton calls c ih =>
      rw [List.mem_append, List.mem_singleton, not_or] at h
      rw [boundAt?_concat, ih h.1, if_neg fun hc => h.2 hc.symm]
      rfl

/-- Emitting calls bind nothing. -/
theorem distance_concat {calls : List AssemblerCall} {c : AssemblerCall}
    (hc : ∀ l, c ≠ .bind l) : distance (calls ++ [c]) = distance calls := by
  funext l
  simp only [distance, boundAt?_concat, if_neg (hc l), Option.or_none]

theorem distance_bind_self {calls : List AssemblerCall} {l : Label} (h : .bind l ∉ calls) :
    distance (calls ++ [.bind l]) l = (size calls : Int) - l.address := by
  simp only [distance, boundAt?_concat, boundAt?_eq_none h, if_pos, Option.none_or]

theorem distance_bind_other {calls : List AssemblerCall} {l l' : Label} (h : l' ≠ l) :
    distance (calls ++ [.bind l]) l' = distance calls l' := by
  have hbind : AssemblerCall.bind l ≠ .bind l' := fun heq => h (bind.inj heq).symm
  simp only [distance, boundAt?_concat, if_neg hbind, Option.or_none]

namespace BindsOnce

theorem of_concat {calls : List AssemblerCall} {c : AssemblerCall}
    (h : BindsOnce (calls ++ [c])) : BindsOnce calls := by
  intro before l after hcalls
  exact h before l (after ++ [c]) (by rw [hcalls, List.append_assoc, List.cons_append])

/-- A label at the current address is not bound: it is not made yet. -/
theorem unbound {calls : List AssemblerCall} (h : BindsOnce calls) {l : Label}
    (hl : size calls ≤ l.address) : .bind l ∉ calls := by
  intro hmem
  obtain ⟨before, after, hcalls⟩ := List.append_of_mem hmem
  have hbounds := address_of_mem_labels (h before l after hcalls).1
  have hsize : size calls = size before + size (.bind l :: after) := by
    rw [hcalls, size, List.map_append, List.sum_append]
    rfl
  omega

theorem distance_eq_zero {calls : List AssemblerCall} (h : BindsOnce calls) {l : Label}
    (hl : size calls ≤ l.address) : distance calls l = 0 := by
  simp only [distance, boundAt?_eq_none (h.unbound hl)]

end BindsOnce

/-! ### Patches -/

/-- Writing a unit at an offset from a branch turns its line for some distances into its line for
others. -/
def Patches (l : Label) (far far' : Label → Int) (slot : Nat) (unit : CodeUnit) : Prop :=
  ∀ (c : AssemblerCall) (i : Instruction), c.label? l.address = some l →
    c.line? far l.address = some ⟨l.address, i.opcode, i.operands⟩ →
      ∃ i' : Instruction, c.line? far' l.address = some ⟨l.address, i'.opcode, i'.operands⟩ ∧
        i'.Encodable ∧ slot < i.width ∧ i'.units = i.units.set slot unit

theorem patches_goto {address : Nat} {far far' : Label → Int} {offset : Int8}
    (h : offset.toInt = far' ⟨address, .goto⟩) :
    Patches ⟨address, .goto⟩ far far' 0 (Instruction.headUnit .goto offset.toUInt8) := by
  intro c i hlabel hline
  cases c with
  | goto =>
      cases i with
      | goto old =>
          exact ⟨.goto offset, by simp only [line?, ← h]; rfl, trivial, Nat.one_pos, rfl⟩
      | _ => simp [line?, Instruction.opcode] at hline
  | emit | ifZero | gotoBack | bind => cases hlabel

theorem patches_ifZero {address : Nat} {far far' : Label → Int} {offset : Int16}
    (h : offset.toInt = far' ⟨address, .ifZero⟩) :
    Patches ⟨address, .ifZero⟩ far far' 1 offset.toUInt16 := by
  intro c i hlabel hline
  cases c with
  | ifZero src =>
      cases i with
      | ifZero src' old =>
          have hsrc : src' = src := by
            simp only [line?, Instruction.operands, Option.some.injEq, CodeLine.mk.injEq,
              List.cons.injEq, Int.natCast_inj] at hline
            exact (UInt8.toNat_inj.mp hline.2.2.1).symm
          subst hsrc
          exact ⟨.ifZero src' offset, by simp only [line?, ← h]; rfl, trivial, Nat.one_lt_two, rfl⟩
      | _ => simp [line?, Instruction.opcode] at hline
  | emit | goto | gotoBack | bind => cases hlabel

/-- **A patch changes its own branch only.**  Lines before the branch have other addresses, and
lines after it do not ask for its distance. -/
theorem lines_patch {l : Label} {far far' : Label → Int} {slot : Nat} {unit : CodeUnit}
    (hfar : ∀ l' ≠ l, far' l' = far l') (hpatch : Patches l far far' slot unit)
    {calls : List AssemblerCall} {address : Nat} (hl : l ∈ labels address calls)
    {is : List Instruction} (hlines : Instruction.lines address is = lines far address calls)
    (hfits : ∀ i ∈ is, i.Encodable) :
    ∃ is', Instruction.code is' = (Instruction.code is).set (l.address - address + slot) unit ∧
      Instruction.lines address is' = lines far' address calls ∧ ∀ i ∈ is', i.Encodable := by
  induction calls generalizing address is with
  | nil => cases hl
  | cons c calls ih =>
      rw [labels_cons, List.mem_append, Option.mem_toList] at hl
      rw [lines_cons] at hlines ⊢
      cases hline : c.line? far address with
      | none =>
          obtain ⟨bound, rfl⟩ := line?_eq_none hline
          exact ih (hl.resolve_left nofun) hlines hfits
      | some x =>
          rw [hline, Option.toList_some, List.singleton_append] at hlines
          obtain ⟨i, is, rfl, rfl, hrest⟩ := Instruction.lines_eq_cons hlines
          have hwidth : i.width = c.width := width_of_line? hline
          rw [hwidth] at hrest
          have hi := hfits i List.mem_cons_self
          have his := fun j hj => hfits j (List.mem_cons_of_mem i hj)
          rcases hl with hl | hl
          · -- the branch is the first line
            obtain ⟨rfl, hpos⟩ := label?_eq_some hl
            obtain ⟨i', hline', hi', hslot, hunits⟩ := hpatch c i hl hline
            have hwidth' : i'.width = c.width := width_of_line? hline'
            refine ⟨i' :: is, ?_, ?_, List.forall_mem_cons.mpr ⟨hi', his⟩⟩
            · rw [Instruction.code_cons, Instruction.code_cons, hunits, Nat.sub_self, Nat.zero_add,
                List.set_append_left _ _ (by rw [i.length_units]; exact hslot)]
            · rw [hline', lines_congr calls fun l' hl' => hfar l' fun heq => by subst heq; omega,
                ← hrest, ← hwidth']
              rfl
          · -- the branch is further on
            have hafter := (address_of_mem_labels hl).1
            have hpos := i.width_pos
            obtain ⟨is', hcode', hlines', his'⟩ := ih hl hrest his
            refine ⟨i :: is', ?_, ?_, List.forall_mem_cons.mpr ⟨hi, his'⟩⟩
            · have hindex : l.address - address + slot - i.width =
                  l.address - (address + c.width) + slot := by omega
              rw [Instruction.code_cons, Instruction.code_cons, hcode',
                List.set_append_right _ _ (by rw [i.length_units]; omega), i.length_units, hindex]
            · rw [line?_congr fun l' hl' => hfar l' fun heq => by subst heq; omega, hline,
                ← hlines', ← hwidth]
              rfl

end AssemblerCall

open AssemblerCall (sites size labels program distance BindsOnce)

/-! ### Refused calls -/

namespace Assembler

@[simp] theorem current_emit (a : Assembler) (i : Instruction) :
    (a.emit i).current = a.current + i.width := by
  simp [current, emit, i.length_units]

theorem gotoBack_cases (a : Assembler) (target : Nat) :
    (BranchKind.goto.Holds (wordDistance a.current target) ∧
      ∃ offset : Int8, a.gotoBack target = .ok (a.emit (.goto offset)) ∧
        offset.toInt = wordDistance a.current target) ∨
      ¬ BranchKind.goto.Holds (wordDistance a.current target) ∧
        a.gotoBack target = .error .gotoTooFar := by
  unfold gotoBack
  rw [← wordDistance]
  rcases int8?_cases (wordDistance a.current target) with ⟨hd, offset, ho, hoffset⟩ | ⟨hd, ho⟩
  · exact .inl ⟨hd, offset, by simp only [ho], hoffset⟩
  · exact .inr ⟨hd, by simp only [ho]⟩

/-- Both kinds of branch are patched in one unit. -/
theorem bind_cases (a : Assembler) (l : Label) :
    (l.kind.Holds ((a.current : Int) - l.address) ∧
      ∃ slot unit, a.bind l = .ok ⟨a.units.setIfInBounds (l.address + slot) unit⟩ ∧
        ∀ far far' : Label → Int, far' l = (a.current : Int) - l.address →
          AssemblerCall.Patches l far far' slot unit) ∨
      ¬ l.kind.Holds ((a.current : Int) - l.address) ∧ a.bind l = .error l.kind.tooFar := by
  obtain ⟨address, kind⟩ := l
  unfold bind
  cases kind with
  | goto =>
      rcases int8?_cases ((a.current : Int) - address) with ⟨hd, offset, ho, hoffset⟩ | ⟨hd, ho⟩
      · refine .inl ⟨hd, 0, _, by simp only [ho]; rfl, ?_⟩
        exact fun far far' h => AssemblerCall.patches_goto (hoffset.trans h.symm)
      · exact .inr ⟨hd, by simp only [ho]; rfl⟩
  | ifZero =>
      rcases int16?_cases ((a.current : Int) - address) with ⟨hd, offset, ho, hoffset⟩ | ⟨hd, ho⟩
      · refine .inl ⟨hd, 1, _, by simp only [ho]; rfl, ?_⟩
        exact fun far far' h => AssemblerCall.patches_ifZero (hoffset.trans h.symm)
      · exact .inr ⟨hd, by simp only [ho]; rfl⟩

/-- **What a call does to the address.**  It is refused for its distance, or goes on by its
width. -/
theorem call_cases (a : Assembler) (c : AssemblerCall) :
    (∃ e, c.refusal? a.current = some e ∧ a.call c = .error e) ∨
      c.refusal? a.current = none ∧
        ∃ a', a.call c = .ok a' ∧ a'.current = a.current + c.width := by
  cases c with
  | emit i => exact .inr ⟨rfl, _, rfl, a.current_emit i⟩
  | goto => exact .inr ⟨rfl, _, rfl, a.current_emit (.goto 0)⟩
  | ifZero src => exact .inr ⟨rfl, _, rfl, a.current_emit (.ifZero src 0)⟩
  | gotoBack target =>
      rcases a.gotoBack_cases target with ⟨hd, offset, hcall, -⟩ | ⟨hd, hcall⟩
      · exact .inr ⟨if_pos hd, _, hcall, a.current_emit (.goto offset)⟩
      · exact .inl ⟨_, if_neg hd, hcall⟩
  | bind l =>
      rcases a.bind_cases l with ⟨hd, slot, unit, hcall, -⟩ | ⟨hd, hcall⟩
      · exact .inr ⟨if_pos hd, _, hcall, Array.size_setIfInBounds⟩
      · exact .inl ⟨_, if_neg hd, hcall⟩

theorem run_cons (a : Assembler) (c : AssemblerCall) (calls : List AssemblerCall) :
    a.run (c :: calls) = (a.call c).bind fun a' => a'.run calls :=
  List.foldlM_cons

theorem run_singleton (a : Assembler) (c : AssemblerCall) : a.run [c] = a.call c := by
  rw [run_cons]
  cases a.call c <;> rfl

theorem run_append (a : Assembler) (calls more : List AssemblerCall) :
    a.run (calls ++ more) = (a.run calls).bind fun a' => a'.run more :=
  List.foldlM_append

/-- Calls are refused for the first distance that an offset cannot hold. -/
theorem run_eq_error_iff (a : Assembler) (calls : List AssemblerCall) (e : BranchError) :
    a.run calls = .error e ↔
      (sites a.current calls).findSome? (fun s => s.2.refusal? s.1) = some e := by
  induction calls generalizing a with
  | nil => exact ⟨nofun, nofun⟩
  | cons c calls ih =>
      rw [run_cons, sites, List.findSome?_cons]
      rcases a.call_cases c with ⟨e', hrefused, hcall⟩ | ⟨hrefused, a', hcall, hcurrent⟩
      · simp only [hcall, hrefused, Except.bind, Except.error.injEq, Option.some.injEq]
      · simp only [hcall, hrefused, Except.bind, ← hcurrent, ih a']

theorem current_run {a a' : Assembler} {calls : List AssemblerCall} (h : a.run calls = .ok a') :
    a'.current = a.current + size calls := by
  induction calls generalizing a with
  | nil => cases h; rfl
  | cons c calls ih =>
      rw [run_cons] at h
      rcases a.call_cases c with ⟨e, -, hcall⟩ | ⟨-, b, hcall, hcurrent⟩
      · rw [hcall] at h
        cases h
      · rw [hcall] at h
        rw [ih h, hcurrent, Nat.add_assoc]
        rfl

/-- Calls that are made one after the other are made in two parts. -/
theorem run_append_eq_ok {a a' : Assembler} {calls more : List AssemblerCall}
    (h : a.run (calls ++ more) = .ok a') : ∃ b, a.run calls = .ok b ∧ b.run more = .ok a' := by
  rw [run_append] at h
  cases hrun : a.run calls with
  | error e => rw [hrun] at h; cases h
  | ok b => rw [hrun] at h; exact ⟨b, rfl, h⟩

/-! ### Code that stands for lines -/

/-- The code is made of the instructions of the lines. -/
def StandsFor (a : Assembler) (lines : List CodeLine) : Prop :=
  ∃ is, a.units.toList = Instruction.code is ∧ Instruction.lines 0 is = lines ∧
    ∀ i ∈ is, i.Encodable

end Assembler

namespace Assembler.StandsFor

variable {a : Assembler} {lines : List CodeLine}

theorem current_eq {is : List Instruction} (h : a.units.toList = Instruction.code is) :
    a.current = (Instruction.code is).length := by
  rw [← h]
  rfl

theorem emit (h : a.StandsFor lines) {i : Instruction} (hi : i.Encodable) :
    (a.emit i).StandsFor (lines ++ [⟨a.current, i.opcode, i.operands⟩]) := by
  obtain ⟨is, hcode, rfl, his⟩ := h
  refine ⟨is ++ [i], ?_, ?_, ?_⟩
  · rw [Instruction.code_append, ← hcode]
    simp [Assembler.emit, Instruction.code]
  · rw [Instruction.lines_append, current_eq hcode, Nat.zero_add]
    rfl
  · intro j hj
    rcases List.mem_append.mp hj with hj | hj
    · exact his j hj
    · exact List.mem_singleton.mp hj ▸ hi

theorem bind {a' : Assembler} {calls : List AssemblerCall} {far far' : Label → Int} {l : Label}
    (h : a.StandsFor (AssemblerCall.lines far 0 calls)) (hl : l ∈ labels 0 calls)
    (hself : far' l = (a.current : Int) - l.address) (hother : ∀ l' ≠ l, far' l' = far l')
    (hbind : a.bind l = .ok a') : a'.StandsFor (AssemblerCall.lines far' 0 calls) := by
  obtain ⟨is, hcode, hlines, his⟩ := h
  rcases a.bind_cases l with ⟨-, slot, unit, hpatched, hpatch⟩ | ⟨-, hrefused⟩
  · rw [hpatched] at hbind
    cases hbind
    obtain ⟨is', hcode', hlines', his'⟩ :=
      AssemblerCall.lines_patch hother (hpatch far far' hself) hl hlines his
    refine ⟨is', ?_, hlines', his'⟩
    rw [Array.toList_setIfInBounds, hcode, hcode', Nat.sub_zero]
  · rw [hrefused] at hbind
    cases hbind

end Assembler.StandsFor

namespace Assembler

/-- Every call but a binding emits the instruction of its line. -/
theorem call_emits {a a' : Assembler} {c : AssemblerCall} {far : Label → Int}
    (hcall : a.call c = .ok a') (hc : ∀ l, c ≠ .bind l) (hfits : ∀ i, c = .emit i → i.Encodable)
    (hfar : ∀ l, c.label? a.current = some l → far l = 0) :
    ∃ i, a' = a.emit i ∧ i.Encodable ∧
      c.line? far a.current = some ⟨a.current, i.opcode, i.operands⟩ := by
  cases c with
  | emit i =>
      cases hcall
      exact ⟨i, rfl, hfits i rfl, rfl⟩
  | goto =>
      cases hcall
      refine ⟨.goto 0, rfl, trivial, ?_⟩
      rw [AssemblerCall.line?, hfar _ rfl]
      rfl
  | ifZero src =>
      cases hcall
      refine ⟨.ifZero src 0, rfl, trivial, ?_⟩
      rw [AssemblerCall.line?, hfar _ rfl]
      rfl
  | gotoBack target =>
      rcases a.gotoBack_cases target with ⟨-, offset, hgoto, hoffset⟩ | ⟨-, hrefused⟩
      · cases hcall.symm.trans hgoto
        refine ⟨.goto offset, rfl, trivial, ?_⟩
        rw [AssemblerCall.line?, ← hoffset]
        rfl
      · cases hcall.symm.trans hrefused
  | bind l => exact absurd rfl (hc l)

/-- What was assembled stands for the program, by induction on the calls from the last. -/
theorem standsFor_run {a : Assembler} {calls : List AssemblerCall} (hbinds : BindsOnce calls)
    (hfits : ∀ i, .emit i ∈ calls → i.Encodable) (hrun : run {} calls = .ok a) :
    a.StandsFor (program calls) := by
  induction calls using List.reverseRecOn generalizing a with
  | nil =>
      cases hrun
      exact ⟨[], rfl, rfl, nofun⟩
  | append_singleton calls c ih =>
      obtain ⟨b, hb, hcall⟩ := run_append_eq_ok hrun
      rw [run_singleton] at hcall
      have hcurrent : b.current = size calls := (current_run hb).trans (Nat.zero_add _)
      have hstands := ih hbinds.of_concat (fun i hi => hfits i (List.mem_append_left _ hi)) hb
      unfold program
      rw [AssemblerCall.lines_append, Nat.zero_add, ← hcurrent]
      by_cases hc : ∀ l, c ≠ .bind l
      · -- a label that the call makes is new, so it is not bound yet and its offset is zero
        have hfar : ∀ l, c.label? b.current = some l → distance calls l = 0 := by
          intro l hl
          have haddress := (AssemblerCall.label?_eq_some hl).1
          exact hbinds.of_concat.distance_eq_zero (by omega)
        have hemits : ∀ i, c = .emit i → i.Encodable := fun i hi =>
          hfits i (List.mem_append_right _ (hi ▸ List.mem_singleton_self _))
        obtain ⟨i, rfl, hi, hline⟩ := call_emits hcall hc hemits hfar
        rw [AssemblerCall.distance_concat hc, AssemblerCall.lines_cons, hline]
        exact hstands.emit hi
      · -- binding emits no line and changes the distance of one label
        obtain ⟨l, hc⟩ := not_forall.mp hc
        obtain rfl := not_not.mp hc
        obtain ⟨hmade, hunbound⟩ := hbinds calls l [] rfl
        have hself : distance (calls ++ [.bind l]) l = (b.current : Int) - l.address := by
          rw [AssemblerCall.distance_bind_self hunbound, hcurrent]
        have hother : ∀ l' ≠ l, distance (calls ++ [.bind l]) l' = distance calls l' :=
          fun l' h => AssemblerCall.distance_bind_other h
        rw [show AssemblerCall.lines _ b.current [.bind l] = [] from rfl, List.append_nil]
        exact hstands.bind hmade hself hother hcall

/-- **Assembled code is read back as its program.**  The calls bind each label at most once, after
the call that made it, and give registers of four bits values below sixteen.  They are refused
exactly for the first distance that an offset cannot hold.  Otherwise the code is read from address
zero to its end as the program, whose lines stand at the addresses that were current before their
calls.  The distance of a `goto` to a known address is the difference of the addresses, if that has
64 bits. -/
theorem assembly_is_decoded (calls : List AssemblerCall) (hbinds : BindsOnce calls)
    (hfits : ∀ i, .emit i ∈ calls → i.Encodable) :
    (∀ e, run {} calls = .error e ↔
      (sites 0 calls).findSome? (fun s => s.2.refusal? s.1) = some e) ∧
    (∀ a, run {} calls = .ok a → Decodes a.units 0 (program calls) ∧
      ∀ before c after, calls = before ++ c :: after →
        ∃ b, run {} before = .ok b ∧ (sites 0 calls)[before.length]? = some (b.current, c)) ∧
    ∀ address target : Nat, address ≤ target + 2 ^ 63 → target < address + 2 ^ 63 →
      wordDistance address target = (target : Int) - address := by
  refine ⟨fun e => run_eq_error_iff {} calls e, fun a hrun => ⟨?_, ?_⟩,
    fun address target => wordDistance_eq⟩
  · obtain ⟨is, hcode, hlines, his⟩ := standsFor_run hbinds hfits hrun
    rw [← hlines]
    exact @Decodes.of_units _ _ [] hcode his
  · rintro before c after rfl
    obtain ⟨b, hb, -⟩ := run_append_eq_ok hrun
    refine ⟨b, hb, ?_⟩
    rw [AssemblerCall.sites_append, current_run hb, ← AssemblerCall.length_sites 0 before,
      List.getElem?_append_right (Nat.le_refl _), Nat.sub_self]
    rfl

/-- Two branches that cross, one of them bound between the units of the other's code. -/
theorem assembly_is_decoded_crossing :
    let calls := [.goto, .ifZero 3, .emit (.newArray 1 2 7), .bind ⟨0, .goto⟩,
      .emit (.const 4 (-1)), .bind ⟨1, .ifZero⟩, .gotoBack 3, .goto]
    BindsOnce calls ∧ (∀ i, .emit i ∈ calls → i.Encodable) ∧
      ∃ a, run {} calls = .ok a ∧ Decodes a.units 0 [⟨0, .goto, [5]⟩, ⟨1, .ifZero, [3, 7]⟩,
        ⟨3, .newArray, [1, 2, 7]⟩, ⟨5, .const, [4, -1]⟩, ⟨8, .goto, [-5]⟩, ⟨9, .goto, [0]⟩] := by
  intro calls
  have hbinds : BindsOnce calls := by decide
  have hfits : ∀ i, .emit i ∈ calls → i.Encodable := by
    intro i hi
    have hi : i = .newArray 1 2 7 ∨ i = .const 4 (-1) := by simpa [calls] using hi
    rcases hi with rfl | rfl <;> decide
  have hreach : (sites 0 calls).findSome? (fun s => s.2.refusal? s.1) = none := by decide
  obtain ⟨hrefused, hread, -⟩ := assembly_is_decoded calls hbinds hfits
  refine ⟨hbinds, hfits, ?_⟩
  cases hrun : run {} calls with
  | error e =>
      rw [hrefused, hreach] at hrun
      cases hrun
  | ok a =>
      have hprogram : program calls = [⟨0, .goto, [5]⟩, ⟨1, .ifZero, [3, 7]⟩,
        ⟨3, .newArray, [1, 2, 7]⟩, ⟨5, .const, [4, -1]⟩, ⟨8, .goto, [-5]⟩, ⟨9, .goto, [0]⟩] := by
        decide
      exact ⟨a, rfl, hprogram ▸ (hread a hrun).1⟩

/-- A target near the end of the address space counts as one just before address zero: the distance
from zero to the last address is taken as minus one, although an offset of eight bits does not
hold it. -/
theorem gotoBack_wraps :
    (∃ a, run {} [.gotoBack (2 ^ 64 - 1)] = .ok a ∧ Decodes a.units 0 [⟨0, .goto, [-1]⟩]) ∧
      ¬ BranchKind.goto.Holds (((2 ^ 64 - 1 : Nat) : Int) - (0 : Nat)) := by
  refine ⟨⟨⟨#[Instruction.headUnit .goto 255]⟩, ?_, ?_⟩, by decide⟩
  · rfl
  · exact .next (i := .goto (-1)) (by decide) .done

end Assembler

end TracedMachine
