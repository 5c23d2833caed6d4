import TracedMachine.Proofs.Heap.WellFormed
import Mathlib.Tactic.Tauto

/-!
# Proofs — Heap — Lifetime

How long an object lives.  A reference names a slot, and slots are used again, so that an object is
there before and after an operation does not make it the same object: an allocation may collect it
and put another one into its slot.  `passage` therefore lists the heaps of a history with those
between the collection of an operation and the rest of it.  Between two heaps of a passage objects
are taken away, or one is put into an empty slot, but not both; so a reference that names an object
in all of them names one object (`LivesThrough`).

**Lifetime** (`object_lifetime`).  An object lives until its reference is freed, or until a
collection at which its reference *awaits* one: it was released and no collection has run since.
The release may be older than the object.  A released object that is freed leaves its reference
among those that await a collection, and the next object in its slot dies with that collection
though nobody released it.  So an object that is neither freed nor released lives on whatever
happens if and only if its reference did not await a collection when it was allocated.

What one operation does is said by `perform_keeps_iff` (which objects survive it), by `object?_kept`
(which it leaves as they are) and by `mem_garbage_perform` (which references await a collection
after it).
-/

namespace TracedMachine

namespace Heap

/-- The heaps that a history passes through.  Where an operation collects, the heap after its
collection is one of them. -/
def passage (h : Heap) : List HeapOp → List Heap
  | [] => [h]
  | op :: ops =>
    h :: ((if op.collects h then [h.collect.state] else []) ++ (op.perform h).state.passage ops)

/-- The object that a reference names is there through a whole history. -/
def LivesThrough (r : ObjectRef) (h : Heap) (ops : List HeapOp) : Prop :=
  ∀ x ∈ h.passage ops, (x.object? r).isSome

/-- Some operation of a history collects. -/
def CollectsIn (h : Heap) : List HeapOp → Prop
  | [] => False
  | op :: ops => op.collects h ∨ (op.perform h).state.CollectsIn ops

/-- A reference is released in a history, and a collection follows. -/
def ReleasedThenCollected (r : ObjectRef) (h : Heap) : List HeapOp → Prop
  | [] => False
  | op :: ops =>
    (op = .release r ∧ (op.perform h).state.CollectsIn ops) ∨
      ReleasedThenCollected r (op.perform h).state ops

/-- A reference is released in a history, and no collection follows. -/
def AwaitsCollection (r : ObjectRef) (h : Heap) : List HeapOp → Prop
  | [] => False
  | op :: ops =>
    (op = .release r ∧ ¬ (op.perform h).state.CollectsIn ops) ∨
      AwaitsCollection r (op.perform h).state ops

instance decidableCollectsIn : ∀ (h : Heap) (ops : List HeapOp), Decidable (h.CollectsIn ops)
  | _, [] => .isFalse id
  | h, op :: ops =>
    have := decidableCollectsIn (op.perform h).state ops
    inferInstanceAs (Decidable (_ ∨ _))

instance decidableAwaitsCollection (r : ObjectRef) :
    ∀ (h : Heap) (ops : List HeapOp), Decidable (AwaitsCollection r h ops)
  | _, [] => .isFalse id
  | h, op :: ops =>
    have := decidableAwaitsCollection r (op.perform h).state ops
    inferInstanceAs (Decidable (_ ∨ _))

/-! ### One operation -/

@[simp] theorem garbage_collect (h : Heap) : h.collect.state.garbage = #[] :=
  reclaim_induction (P := fun x => x.garbage = #[])
    (fun hP e => by rw [state_of_remove e]; exact hP) h.garbage.toList { h with garbage := #[] } rfl

@[simp] theorem began_mem_collect (h : Heap) : .passBegan .collection ∈ h.collect.events :=
  List.mem_cons_self

theorem collects_collect (h : Heap) : HeapOp.collect.collects h := began_mem_collect h

/-- An operation that asks for an object neither frees nor releases one. -/
theorem ne_of_request? {op : HeapOp} {q : AllocRequest} (asked : op.request? = some q)
    (r : ObjectRef) : op ≠ .free r ∧ op ≠ .release r := by
  constructor
  · rintro rfl
    cases asked
  · rintro rfl
    cases asked

/-- **What survives an operation.**  Of the objects that are there, it takes away the one that it
frees, and if it collects, the released ones. -/
theorem perform_keeps_iff {h : Heap} {r : ObjectRef} (hw : h.WellFormed)
    (hr : (h.object? r).isSome) (op : HeapOp) :
    ((op.collects h → (h.collect.state.object? r).isSome) ∧
        ((op.perform h).state.object? r).isSome) ↔
      op ≠ .free r ∧ ¬ (op.collects h ∧ r ∈ h.garbage) := by
  have hcollect : (h.collect.state.object? r).isSome ↔ r ∉ h.garbage := by
    rw [object?_collect]
    by_cases hg : r ∈ h.garbage <;> simp [hg, hr]
  have hstep := op.perform_step h
  unfold HeapOp.collects
  generalize op.perform h = out at hstep
  cases hstep with
  | @placed op q x asked fits =>
      have hne := (ne_of_request? asked r).1
      have hlive : ((h.placed q x).object? r).isSome := by
        rw [hw.object?_placed fits]; split <;> simp [hr]
      simp [hne, hlive]
  | @replaced op q x asked full fits =>
      have hne := (ne_of_request? asked r).1
      have hlive : (h.collect.state.object? r).isSome →
          ((h.collect.state.placed q x).object? r).isSome := by
        rw [hw.collect.object?_placed fits]; split <;> simp
      simp only [List.mem_append, began_mem_collect, true_or, true_and, forall_const]
      rw [and_iff_left_of_imp hlive, hcollect, and_iff_right hne]
  | @exhausted op q asked full still =>
      have hne := (ne_of_request? asked r).1
      simp [hcollect, hne]
  | noArray | noInstance | notStored | refusedOutside => simp [hr]
  | released x =>
      have hlive : ((h.release x).object? r).isSome := hr
      simp [hlive]
  | untracked x =>
      have hlive : ((h.releaseTracked x).2.object? r).isSome := hr
      simp [hlive]
  | tookOutside | gaveOutside =>
      have hlive : ∀ bytes, ({ h with externalUsed := bytes }.object? r).isSome := fun _ => hr
      simp [hlive]
  | @freed x o h' found =>
      by_cases hx : r = x
      · subst hx; simp [object?_remove found]
      · simp [object?_remove found, hx, Ne.symm hx, hr]
  | @notFreed x gone =>
      have hx : x ≠ r := by rintro rfl; simp [gone] at hr
      simp [hx, hr]
  | collected => simp [hcollect]
  | @stored x index i w valid =>
      by_cases hx : r = x
      · subst hx; simp [object?_store, hr]
      · simp [object?_store, hx, hr]

/-- **What an operation does not touch.**  An object that it neither frees nor stores into stays as
it is, unless the operation collects it. -/
theorem object?_kept {h : Heap} {r : ObjectRef} {o : HeapObject} {op : HeapOp} (hw : h.WellFormed)
    (ho : h.object? r = some o) (hfree : op ≠ .free r) (hput : ∀ i w, op ≠ .put r i w) :
    (op.perform h).state.object? r = some o ∨ op.collects h ∧ r ∈ h.garbage := by
  have hcollected : h.collect.state.object? r = some o ∨ r ∈ h.garbage := by
    rw [object?_collect]
    by_cases hg : r ∈ h.garbage
    · exact .inr hg
    · exact .inl (by rw [if_neg hg, ho])
  have hstep := op.perform_step h
  unfold HeapOp.collects
  generalize op.perform h = out at hstep
  cases hstep with
  | @placed op q x asked fits =>
      left
      -- the new object has come into an empty slot
      have hne : r ≠ x := by
        rintro rfl
        rw [(hw.vacant fits).1] at ho
        cases ho
      rw [hw.object?_placed fits, if_neg hne, ho]
  | @replaced op q x asked full fits =>
      rcases hcollected with hkept | hg
      · left
        have hne : r ≠ x := by
          rintro rfl
          rw [(hw.collect.vacant fits).1] at hkept
          cases hkept
        rw [hw.collect.object?_placed fits, if_neg hne, hkept]
      · exact .inr ⟨List.mem_append_left _ h.began_mem_collect, hg⟩
  | exhausted =>
      exact hcollected.imp_right fun hg => ⟨List.mem_append_left _ h.began_mem_collect, hg⟩
  | collected => exact hcollected.imp_right fun hg => ⟨h.began_mem_collect, hg⟩
  | noArray | noInstance | notFreed | released | untracked | notStored => exact .inl ho
  | tookOutside | refusedOutside | gaveOutside => exact .inl ho
  | @freed x _ _ found =>
      have hne : r ≠ x := fun e => hfree (by rw [e])
      exact .inl (by rw [object?_remove found, if_neg hne, ho])
  | @stored x index i w valid =>
      have hne : r ≠ x := fun e => hput index w (by rw [e])
      exact .inl (by rw [object?_store, if_neg hne, ho])

/-- **What awaits a collection after an operation**: what it releases, and unless it collects,
what awaited one before. -/
theorem mem_garbage_perform {h : Heap} {r : ObjectRef} (op : HeapOp) :
    r ∈ (op.perform h).state.garbage ↔
      op = .release r ∨ (¬ op.collects h ∧ r ∈ h.garbage) := by
  have hstep := op.perform_step h
  unfold HeapOp.collects
  generalize op.perform h = out at hstep
  cases hstep with
  | @placed op q x asked fits =>
      have hne := (ne_of_request? asked r).2
      simp [placed, place, hne]
  | @replaced op q x asked full fits =>
      have hne := (ne_of_request? asked r).2
      simp [placed, place, hne]
  | @exhausted op q asked full still =>
      have hne := (ne_of_request? asked r).2
      simp [hne]
  | noArray | noInstance | notFreed | notStored => simp
  | tookOutside | refusedOutside | gaveOutside => simp
  | freed found => rw [state_of_remove found]; simp
  | released x => simp [release, or_comm, eq_comm]
  | untracked x => simp [releaseTracked]
  | collected => simp
  | stored valid => simp [store]

/-- An allocation names a new object, in a slot that was empty. -/
theorem born {h : Heap} {r : ObjectRef} {op : HeapOp} (hw : h.WellFormed)
    (e : (op.perform h).value.reference? = some r) :
    ((op.perform h).state.object? r).isSome ∧
      (h.object? r = none ∨ op.collects h ∧ h.collect.state.object? r = none) := by
  have hstep := op.perform_step h
  unfold HeapOp.collects
  generalize op.perform h = out at hstep e
  cases hstep with
  | placed asked fits =>
      cases e
      exact ⟨by simp [hw.object?_placed fits], .inl (hw.vacant fits).1⟩
  | replaced asked full fits =>
      cases e
      exact ⟨by simp [hw.collect.object?_placed fits], .inr ⟨by simp, (hw.collect.vacant fits).1⟩⟩
  | _ => cases e

/-! ### Histories -/

theorem livesThrough_nil {r : ObjectRef} {h : Heap} :
    LivesThrough r h [] ↔ (h.object? r).isSome := by
  simp [LivesThrough, passage]

theorem livesThrough_cons {r : ObjectRef} {h : Heap} {op : HeapOp} {ops : List HeapOp} :
    LivesThrough r h (op :: ops) ↔ (h.object? r).isSome ∧
      (op.collects h → (h.collect.state.object? r).isSome) ∧
        LivesThrough r (op.perform h).state ops := by
  by_cases hc : op.collects h <;> simp [LivesThrough, passage, hc]

theorem LivesThrough.here {r : ObjectRef} {h : Heap} {ops : List HeapOp}
    (hl : LivesThrough r h ops) : (h.object? r).isSome := by
  cases ops with
  | nil => exact livesThrough_nil.mp hl
  | cons op ops => exact (livesThrough_cons.mp hl).1

/-- An object that is there lives through a history that neither frees its reference nor collects
it. -/
theorem livesThrough_iff {r : ObjectRef} (ops : List HeapOp) : ∀ {h : Heap}, h.WellFormed →
    (h.object? r).isSome → (LivesThrough r h ops ↔
      .free r ∉ ops ∧ ¬ ReleasedThenCollected r h ops ∧ ¬ (r ∈ h.garbage ∧ h.CollectsIn ops)) := by
  induction ops with
  | nil =>
      intro h _ hr
      simp [livesThrough_nil, hr, ReleasedThenCollected, CollectsIn]
  | cons op ops ih =>
      intro h hw hr
      have hkeeps := perform_keeps_iff hw hr op
      have hgarbage := mem_garbage_perform (h := h) (r := r) op
      have hop : .free r = op ↔ op = .free r := eq_comm
      rw [livesThrough_cons]
      simp only [ReleasedThenCollected, CollectsIn, List.mem_cons, hop]
      by_cases hlive : ((op.perform h).state.object? r).isSome
      · have htail := ih (hw.perform op) hlive
        rw [htail, hgarbage]
        grind
      · -- what the operation takes away does not come back with the rest of the history
        have htail : ¬ LivesThrough r (op.perform h).state ops := fun hl => hlive hl.here
        grind

/-- The references that await a collection, by state and by history. -/
theorem mem_garbage_after {r : ObjectRef} (ops : List HeapOp) : ∀ {h : Heap},
    r ∈ (h.after ops).garbage ↔
      AwaitsCollection r h ops ∨ (r ∈ h.garbage ∧ ¬ h.CollectsIn ops) := by
  induction ops with
  | nil => intro h; simp [after, AwaitsCollection, CollectsIn]
  | cons op ops ih =>
      intro h
      have hgarbage := mem_garbage_perform (h := h) (r := r) op
      have htail := ih (h := (op.perform h).state)
      simp only [after, AwaitsCollection, CollectsIn]
      tauto

/-- While an object lives, its reference is given to no other. -/
theorem LivesThrough.not_reissued {r : ObjectRef} {xs ys : List HeapOp} {op : HeapOp} :
    ∀ {h : Heap}, h.WellFormed → LivesThrough r h (xs ++ op :: ys) →
      (op.perform (h.after xs)).value.reference? ≠ some r := by
  induction xs with
  | nil =>
      intro h hw hl e
      obtain ⟨hhere, hcollect, -⟩ := livesThrough_cons.mp hl
      rcases (born hw e).2 with hvacant | ⟨hc, hvacant⟩
      · simp [hvacant] at hhere
      · simp [hvacant] at hcollect
        exact hcollect hc
  | cons x xs ih =>
      intro h hw hl
      exact ih (hw.perform x) (livesThrough_cons.mp hl).2.2

/-- **Lifetime.**  An object lives exactly until its reference is freed, or is collected after a
release; the release may be one that awaited a collection when the object was allocated.  So it is
safe from collections as long as nobody frees or releases it if and only if its reference awaited
none.  While it lives its reference names no other object. -/
theorem object_lifetime (settings : HeapSettings) (before : List HeapOp) (birth : HeapOp)
    (r : ObjectRef)
    (named : (birth.perform ((Heap.empty settings).after before)).value.reference? = some r) :
    let h := (Heap.empty settings).after (before ++ [birth])
    let awaits := AwaitsCollection r (Heap.empty settings) (before ++ [birth])
    (∀ later, LivesThrough r h later ↔
      .free r ∉ later ∧ ¬ ReleasedThenCollected r h later ∧ ¬ (awaits ∧ h.CollectsIn later)) ∧
    ((∀ later, .free r ∉ later → ¬ ReleasedThenCollected r h later → LivesThrough r h later) ↔
      ¬ awaits) ∧
    ∀ xs op ys, LivesThrough r h (xs ++ op :: ys) →
      (op.perform (h.after xs)).value.reference? ≠ some r := by
  intro h awaits
  have hbefore := (WellFormed.empty settings).after before
  have hw : h.WellFormed := (WellFormed.empty settings).after _
  have hlive : (h.object? r).isSome := by
    have hborn := (born hbefore named).1
    simp only [h, after_append]
    exact hborn
  have hgarbage : r ∈ h.garbage ↔ awaits := by
    rw [mem_garbage_after]
    simp [awaits, Heap.empty]
  have hexact : ∀ later, LivesThrough r h later ↔
      .free r ∉ later ∧ ¬ ReleasedThenCollected r h later ∧ ¬ (awaits ∧ h.CollectsIn later) := by
    intro later
    rw [livesThrough_iff later hw hlive, hgarbage]
  refine ⟨hexact, ⟨fun hsafe ha => ?_, fun ha later hfree hreleased => ?_⟩, ?_⟩
  · -- a bare collection is enough to end the object
    have hcollects : h.CollectsIn [.collect] := .inl (collects_collect h)
    have hlives := hsafe [.collect] (by simp) (by simp [ReleasedThenCollected])
    exact ((hexact _).mp hlives).2.2 ⟨ha, hcollects⟩
  · exact (hexact later).mpr ⟨hfree, hreleased, fun hc => ha hc.1⟩
  · exact fun xs op ys hl => hl.not_reissued hw

/-- A slot that was freed while another one awaits a collection is used again: its object lives
through the collection. -/
theorem object_lifetime_reused :
    let r : ObjectRef := ⟨1, by decide⟩
    let numbers : Class := { descriptor := "[I", kind := .array .int, initialized := true }
    let one : HeapOp := .allocateArray numbers 1 true
    let before := [one, one, .release ⟨0, by decide⟩, .free r]
    let start := Heap.empty { limit := 100 }
    (one.perform (start.after before)).value.reference? = some r ∧
      ¬ AwaitsCollection r start (before ++ [one]) ∧
      LivesThrough r (start.after (before ++ [one])) [.collect] := by
  intro r numbers one before start
  have named : (one.perform (start.after before)).value.reference? = some r := by decide
  have awaits : ¬ AwaitsCollection r start (before ++ [one]) := by decide
  refine ⟨named, awaits, ?_⟩
  exact (object_lifetime _ _ _ _ named).2.1.mpr awaits _ (by simp) (by simp [ReleasedThenCollected])

/-- **A release outlives its object.**  The first slot is released, freed and used again.  Nobody
frees or releases the second object, and the next collection takes it away. -/
theorem release_outlives_object :
    let r : ObjectRef := ⟨0, by decide⟩
    let numbers : Class := { descriptor := "[I", kind := .array .int, initialized := true }
    let one : HeapOp := .allocateArray numbers 1 true
    let before := [one, .release r, .free r]
    let start := Heap.empty { limit := 100 }
    let h := start.after (before ++ [one])
    (one.perform (start.after before)).value.reference? = some r ∧
      .free r ∉ [HeapOp.collect] ∧ ¬ ReleasedThenCollected r h [.collect] ∧
      ¬ LivesThrough r h [.collect] := by
  intro r numbers one before start h
  refine ⟨by decide, by simp, by simp [ReleasedThenCollected], fun hl => ?_⟩
  have hgone : h.collect.state.object? r = none := by decide
  have hthere := (livesThrough_cons.mp hl).2.1 (collects_collect h)
  rw [hgone] at hthere
  cases hthere

end Heap

end TracedMachine
