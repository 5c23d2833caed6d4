import TracedMachine.Proofs.Heap.Lifetime

/-!
# Proofs — Heap — Contents

What the elements of an object hold.  `writes` lists the words that the stores of a history put into
one element of one object, those that failed left out.

**Contents** (`contents_follow_writes`).  An object that is there at the end of a history was made
by one of its operations and has lived since.  It has as many elements as it was made with; each
holds the last word that was stored in it since then, and zero if there was none.  So nothing of an
earlier object in the same slot can be read.

`object?_perform` says where the object of a reference comes from that is there after an operation:
the operation has made it, of zeros, or it was there before and the operation has overwritten at
most one element (`HeapObject.Overwritten`).  `contents_after` follows this through a history.
-/

namespace TracedMachine

namespace HeapObject

/-- The word in an element; zero if there is no such element. -/
def word (o : HeapObject) (i : Int32) : Word := o.slots.getD i.toInt.toNat 0

theorem word_zeros {o : HeapObject} {n : Nat} (h : o.slots = Array.replicate n 0) (i : Int32) :
    o.word i = 0 := by
  rw [word, h, Array.getD_eq_getD_getElem?, Array.getElem?_replicate]
  split <;> rfl

/-- An object before and after some of its elements were overwritten. -/
structure Overwritten (o : HeapObject) (last : Int32 → Option Word) (o' : HeapObject) : Prop where
  size_eq : o'.slots.size = o.slots.size
  word_eq : ∀ i, 0 ≤ i.toInt → o'.word i = (last i).getD (o.word i)

namespace Overwritten

variable {o o₁ o₂ : HeapObject} {first second : Int32 → Option Word}

theorem refl (o : HeapObject) : o.Overwritten (fun _ => none) o := ⟨rfl, fun _ _ => rfl⟩

theorem trans (h₁ : o.Overwritten first o₁) (h₂ : o₁.Overwritten second o₂) :
    o.Overwritten (fun i => (second i).or (first i)) o₂ where
  size_eq := h₂.size_eq.trans h₁.size_eq
  word_eq i hi := by
    rw [h₂.word_eq i hi, h₁.word_eq i hi]
    cases second i <;> rfl

end Overwritten

end HeapObject

/-- The word that an operation with this answer has stored in an element of an object. -/
def HeapOp.written? (op : HeapOp) (answer : HeapAnswer) (r : ObjectRef) (i : Int32) : Option Word :=
  match answer, op with
  | .stored (.ok ()), .put x index w => if x = r ∧ index = i then some w else none
  | _, _ => none

namespace Heap

/-- The words that a history stores in an element of an object, in order. -/
def writes (r : ObjectRef) (i : Int32) (h : Heap) : List HeapOp → List Word
  | [] => []
  | op :: ops =>
    (op.written? (op.perform h).value r i).toList ++ writes r i (op.perform h).state ops

/-- The object that `r` names after a history was made by the operation `birth` of the history, as
`q` asks, and has lived since. -/
structure BornIn (h : Heap) (ops : List HeapOp) (r : ObjectRef) (before : List HeapOp)
    (birth : HeapOp) (q : AllocRequest) (later : List HeapOp) : Prop where
  split : ops = before ++ birth :: later
  asked : birth.request? = some q
  named : (birth.perform (h.after before)).value.reference? = some r
  lives : LivesThrough r (h.after (before ++ [birth])) later

variable {h : Heap} {r : ObjectRef} {o o' : HeapObject}

/-! ### One operation -/

theorem elementIndex_eq (ho : h.object? r = some o) (i : Int32) :
    h.elementIndex r i = if 0 ≤ i.toInt ∧ i.toInt < o.slots.size then .ok i.toInt.toNat
      else .error (.indexOutOfBounds o.slots.size i.toInt) := by
  have hinside : 0 ≤ i.toInt ∧ i.toInt.toNat < o.slots.size ↔
      0 ≤ i.toInt ∧ i.toInt < o.slots.size := by omega
  simp only [elementIndex, ho, hinside]

theorem arrayGet_eq (ho : h.object? r = some o) (i : Int32) :
    h.arrayGet r i = if 0 ≤ i.toInt ∧ i.toInt < o.slots.size then .ok (o.word i)
      else .error (.indexOutOfBounds o.slots.size i.toInt) := by
  rw [arrayGet, elementIndex_eq ho]
  split
  · simp only [Except.map, load, ho, HeapObject.word]
  · rfl

/-- Storing a word overwrites one element. -/
theorem overwritten_store {index : Int32} {i : Nat} (ho : h.object? r = some o)
    (valid : h.elementIndex r index = .ok i) (w : Word) :
    o.Overwritten (HeapOp.written? (.put r index w) (.stored (.ok ())) r)
      { o with slots := o.slots.setIfInBounds i w } := by
  rw [elementIndex_eq ho] at valid
  split at valid
  · next hinside =>
    cases valid
    refine ⟨Array.size_setIfInBounds, fun j hj => ?_⟩
    simp only [HeapOp.written?, HeapObject.word, Array.getD_eq_getD_getElem?, true_and]
    by_cases hindex : index = j
    · subst hindex
      have hlt : index.toInt.toNat < o.slots.size := by omega
      rw [if_pos rfl, Array.getElem?_setIfInBounds_self_of_lt hlt]
      rfl
    · have hne : index.toInt ≠ j.toInt := fun e => hindex (Int32.toInt_inj.mp e)
      have hplace : index.toInt.toNat ≠ j.toInt.toNat := by omega
      rw [if_neg hindex, Array.getElem?_setIfInBounds_ne hplace]
      rfl
  · cases valid

/-- **Where an object comes from** that is there after an operation.  The operation has made it, or
it was there and lived through the operation, which has overwritten what it has stored. -/
theorem object?_perform (hw : h.WellFormed) (op : HeapOp)
    (ho : (op.perform h).state.object? r = some o') :
    ((op.perform h).value.reference? = some r ∧
        ∃ q, op.request? = some q ∧ o'.slots = Array.replicate q.slots 0) ∨
      (op.collects h → (h.collect.state.object? r).isSome) ∧
        ∃ o, h.object? r = some o ∧ o.Overwritten (op.written? (op.perform h).value r) o' := by
  have hcollected : h.collect.state.object? r = some o' → h.object? r = some o' := by
    rw [object?_collect]
    split
    · intro e
      cases e
    · exact id
  have hstep := op.perform_step h
  unfold HeapOp.collects
  generalize op.perform h = out at hstep ho
  cases hstep with
  | @placed op q x asked fits =>
      rw [hw.object?_placed fits] at ho
      split at ho
      · next hx =>
        cases ho
        exact .inl ⟨congrArg some hx.symm, q, asked, rfl⟩
      · -- the object stands in another slot than the new one
        exact .inr ⟨by simp, o', ho, .refl o'⟩
  | @replaced op q x asked full fits =>
      rw [hw.collect.object?_placed fits] at ho
      split at ho
      · next hx =>
        cases ho
        exact .inl ⟨congrArg some hx.symm, q, asked, rfl⟩
      · exact .inr ⟨fun _ => Option.isSome_of_eq_some ho, o', hcollected ho, .refl o'⟩
  | exhausted | collected =>
      exact .inr ⟨fun _ => Option.isSome_of_eq_some ho, o', hcollected ho, .refl o'⟩
  | noArray | noInstance | notFreed | released | untracked | notStored =>
      exact .inr ⟨by simp, o', ho, .refl o'⟩
  | tookOutside | refusedOutside | gaveOutside => exact .inr ⟨by simp, o', ho, .refl o'⟩
  | freed found =>
      rw [object?_remove found] at ho
      split at ho
      · cases ho
      · exact .inr ⟨by simp, o', ho, .refl o'⟩
  | @stored x index i w valid =>
      refine .inr ⟨by simp, ?_⟩
      rw [object?_store] at ho
      split at ho
      · next hx =>
        subst hx
        obtain ⟨o, hthere, rfl⟩ := Option.map_eq_some_iff.mp ho
        exact ⟨o, hthere, overwritten_store hthere valid w⟩
      · next hx =>
        -- another object is stored in
        have hnone : HeapOp.written? (.put x index w) (.stored (.ok ())) r = fun _ => none := by
          funext j
          simp [HeapOp.written?, Ne.symm hx]
        exact ⟨o', ho, hnone ▸ .refl o'⟩

/-! ### Histories -/

/-- **Where an object comes from** that is there after a history. -/
theorem contents_after (ops : List HeapOp) : ∀ {h : Heap}, h.WellFormed →
    (h.after ops).object? r = some o' →
    (LivesThrough r h ops ∧ ∃ o, h.object? r = some o ∧
        o.Overwritten (fun i => (writes r i h ops).getLast?) o') ∨
      ∃ before birth q later, ∃ o : HeapObject, h.BornIn ops r before birth q later ∧
        o.slots = Array.replicate q.slots 0 ∧
        o.Overwritten
          (fun i => (writes r i (h.after (before ++ [birth])) later).getLast?) o' := by
  induction ops with
  | nil =>
      intro h hw ho
      exact .inl ⟨livesThrough_nil.mpr (Option.isSome_of_eq_some ho), o', ho, .refl o'⟩
  | cons op ops ih =>
      intro h hw ho
      rcases ih (hw.perform op) ho with ⟨hlives, o₁, ho₁, hover⟩ | hborn
      · rcases object?_perform hw op ho₁ with
          ⟨hnamed, q, asked, hzeros⟩ | ⟨hkept, o, hthere, hstored⟩
        · -- the object that lives through the rest begins here
          exact .inr ⟨[], op, q, ops, o₁, ⟨rfl, asked, hnamed, hlives⟩, hzeros, hover⟩
        · refine .inl ⟨?_, o, hthere, ?_⟩
          · exact livesThrough_cons.mpr ⟨Option.isSome_of_eq_some hthere, hkept, hlives⟩
          · have hlast : (fun i => (writes r i h (op :: ops)).getLast?) = fun i =>
                ((writes r i (op.perform h).state ops).getLast?).or
                  (op.written? (op.perform h).value r i) := by
              funext i
              rw [writes, List.getLast?_append]
              cases op.written? (op.perform h).value r i <;> rfl
            rw [hlast]
            exact hstored.trans hover
      · -- the operation comes before the one that makes the object
        obtain ⟨before, birth, q, later, o, hborn, hzeros, hover⟩ := hborn
        refine .inr ⟨op :: before, birth, q, later, o, ?_, hzeros, hover⟩
        exact ⟨congrArg (op :: ·) hborn.split, hborn.asked, hborn.named, hborn.lives⟩

/-- **Contents.**  An object that is there at the end of a history was made in it and has lived
since; its reference was not given away again.  It has the elements that it was made with.  Each
holds the last word stored in it since it was made, and zero if none was.  An operation that the
object lives through changes no element but the one it stores. -/
theorem contents_follow_writes (settings : HeapSettings) (ops : List HeapOp) (r : ObjectRef)
    (live : (((Heap.empty settings).after ops).object? r).isSome) :
    let h := (Heap.empty settings).after ops
    (∃ before birth q later, (Heap.empty settings).BornIn ops r before birth q later ∧
      let born := (Heap.empty settings).after (before ++ [birth])
      (∀ xs op ys, later = xs ++ op :: ys →
        (op.perform (born.after xs)).value.reference? ≠ some r) ∧
      ∀ i : Int32, h.arrayGet r i =
        if 0 ≤ i.toInt ∧ i.toInt < q.slots then .ok ((born.writes r i later).getLast?.getD 0)
        else .error (.indexOutOfBounds q.slots i.toInt)) ∧
    ∀ op, LivesThrough r h [op] → ∀ i, op.written? (op.perform h).value r i = none →
      (op.perform h).state.arrayGet r i = h.arrayGet r i := by
  intro h
  obtain ⟨o, ho⟩ := Option.isSome_iff_exists.mp live
  have hw : h.WellFormed := (WellFormed.empty settings).after ops
  constructor
  · rcases contents_after ops (WellFormed.empty settings) ho with ⟨-, o₀, hnone, -⟩ | hborn
    · -- an empty heap has no objects
      simp [Heap.empty, object?] at hnone
    · obtain ⟨before, birth, q, later, zeros, hborn, hzeros, hover⟩ := hborn
      have hbornw := (WellFormed.empty settings).after (before ++ [birth])
      refine ⟨before, birth, q, later, hborn, ?_, fun i => ?_⟩
      · rintro xs op ys rfl
        exact hborn.lives.not_reissued hbornw
      · have hsize : o.slots.size = q.slots := by
          rw [hover.size_eq, hzeros, Array.size_replicate]
        rw [arrayGet_eq ho, hsize]
        split
        · next hinside =>
          rw [hover.word_eq i hinside.1, HeapObject.word_zeros hzeros]
        · rfl
  · intro op hlives i hunwritten
    obtain ⟨o₁, ho₁⟩ := Option.isSome_iff_exists.mp (livesThrough_cons.mp hlives).2.2.here
    rcases object?_perform hw op ho₁ with ⟨hnamed, -⟩ | ⟨-, o₂, hthere, hstored⟩
    · have hlives : LivesThrough r h ([] ++ op :: []) := hlives
      have hnew := hlives.not_reissued hw
      exact absurd hnamed hnew
    · rw [arrayGet_eq ho₁, arrayGet_eq hthere, hstored.size_eq]
      split
      · next hinside =>
        rw [hstored.word_eq i hinside.1, hunwritten]
        rfl
      · rfl

/-- A slot that is used again, with an element that was stored in before and one that is stored in
twice. -/
theorem contents_follow_writes_reused :
    let r : ObjectRef := ⟨0, by decide⟩
    let numbers : Class := { descriptor := "[I", kind := .array .int, initialized := true }
    let two : HeapOp := .allocateArray numbers 2 true
    let ops := [two, .put r 1 7, .free r, two, .put r 0 3, .put r 0 4, .put r 2 5]
    let start := Heap.empty { limit := 100 }
    ((start.after ops).object? r).isSome ∧
      (start.after ops).arrayGet r 0 = .ok 4 ∧ (start.after ops).arrayGet r 1 = .ok 0 ∧
      ∃ before birth q later, start.BornIn ops r before birth q later ∧ ∀ i : Int32,
        (start.after ops).arrayGet r i =
          if 0 ≤ i.toInt ∧ i.toInt < q.slots then
            .ok (((start.after (before ++ [birth])).writes r i later).getLast?.getD 0)
          else .error (.indexOutOfBounds q.slots i.toInt) := by
  intro r numbers two ops start
  have live : ((start.after ops).object? r).isSome := by decide
  obtain ⟨before, birth, q, later, hborn, -, hreads⟩ :=
    (contents_follow_writes { limit := 100 } ops r live).1
  exact ⟨live, by decide, by decide, before, birth, q, later, hborn, hreads⟩

end Heap

end TracedMachine
