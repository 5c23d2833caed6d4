import TracedMachine.ThreadList
import Mathlib.Data.List.Nodup

/-!
# Proofs — ThreadList

The numbers of threads in trace records.  They are handed out in turn, and nothing is told to the
one who hands them out when a thread is detached: the number of a thread depends on how many threads
were attached before it, and on nothing else (`ThreadList.Numbered`).

**Ids** (`ThreadList.ids_in_turn`).  No number is zero, and two threads have the same one exactly if
it was the same turn when they were attached.  So a key names each number once exactly if no two
attached threads have come in the same turn, and that is so while fewer than 255 threads have come
after the oldest one that is attached.  It does not help that few threads are attached
(`ThreadList.ids_meet`).

The turns are counted in 32 bits, and `2 ^ 32` is one more than a multiple of 255: when that count
starts again, a turn comes twice in a row.
-/

namespace TracedMachine

/-- Something that is asked of a list of threads. -/
inductive ThreadListOp where
  | attach (name : String) (trackExternal : Bool)
  | detach (place : Nat)

/-- Does what is asked. -/
def ThreadListOp.perform (l : ThreadList) : ThreadListOp → ThreadList
  | attach name trackExternal => (l.attach name trackExternal).state
  | detach place => l.detach place

namespace ThreadList

/-- The list after a history. -/
def after (l : ThreadList) (ops : List ThreadListOp) : ThreadList :=
  ops.foldl ThreadListOp.perform l

/-- The turn of the thread that is attached after `n` others. -/
def turn (n : Nat) : Nat := n % 0x100000000 % 255

/-- The thread at a place is attached. -/
def AttachedAt (l : ThreadList) (place : Nat) : Prop :=
  ∃ t, l.get? place = some t ∧ t.isAttached = true

/-- Threads have their numbers by turns. -/
def Numbered (l : ThreadList) : Prop :=
  ∀ place t, l.get? place = some t → t.id = ⟨(turn place + 1).toUInt8⟩

/-! ### Turns -/

theorem turn_lt (n : Nat) : turn n < 255 := Nat.mod_lt _ (by decide)

theorem toNat_turn (n : Nat) : (turn n + 1).toUInt8.toNat = turn n + 1 := by
  have hlt := turn_lt n
  rw [Nat.toUInt8_eq, UInt8.toNat_ofNat']
  omega

/-- While the count of turns has not started again, 255 turns in a row are different ones. -/
theorem turn_inj_of_near {oldest size i j : Nat} (hsize : size ≤ 0x100000000)
    (hnear : size ≤ oldest + 255) (hi : oldest ≤ i ∧ i < size) (hj : oldest ≤ j ∧ j < size)
    (h : turn i = turn j) : i = j := by
  unfold turn at h
  omega

/-! ### What a history keeps -/

theorem numbered_empty : ({} : ThreadList).Numbered := by
  intro place t ht
  cases ht

theorem numbered_attach {l : ThreadList} (h : l.Numbered) (name : String) (trackExternal : Bool) :
    (l.attach name trackExternal).state.Numbered := by
  intro place t ht
  simp only [attach, get?, Array.getElem?_push] at ht
  split at ht
  · next hplace =>
    cases ht
    rw [hplace]
    rfl
  · exact h place t ht

theorem numbered_detach {l : ThreadList} (h : l.Numbered) (place : Nat) :
    (l.detach place).Numbered := by
  intro other t ht
  simp only [detach, setState, modify, get?, Array.getElem?_modify] at ht
  split at ht
  · obtain ⟨before, hbefore, rfl⟩ := Option.map_eq_some_iff.mp ht
    exact h other before hbefore
  · exact h other t ht

theorem Numbered.perform {l : ThreadList} (h : l.Numbered) (op : ThreadListOp) :
    (op.perform l).Numbered := by
  cases op with
  | attach name trackExternal => exact numbered_attach h name trackExternal
  | detach place => exact numbered_detach h place

theorem Numbered.after {l : ThreadList} (h : l.Numbered) (ops : List ThreadListOp) :
    (l.after ops).Numbered := by
  induction ops generalizing l with
  | nil => exact h
  | cons op ops ih => exact ih (h.perform op)

/-! ### Ids -/

namespace Numbered

variable {l : ThreadList}

theorem id_ne_zero (h : l.Numbered) {place : Nat} {t : Thread} (ht : l.get? place = some t) :
    t.id.raw ≠ 0 := by
  intro hzero
  have hnat : t.id.raw.toNat = turn place + 1 := by
    rw [h place t ht]
    exact toNat_turn place
  rw [hzero] at hnat
  cases hnat

/-- Two threads have the same number exactly if it was the same turn when they were attached. -/
theorem id_eq_iff (h : l.Numbered) {i j : Nat} {t u : Thread} (ht : l.get? i = some t)
    (hu : l.get? j = some u) : t.id = u.id ↔ turn i = turn j := by
  rw [h i t ht, h j u hu]
  constructor
  · intro hid
    have hnat := congrArg (fun id : ThreadId => id.raw.toNat) hid
    simp only [toNat_turn] at hnat
    exact Nat.succ.inj hnat
  · intro hturn
    rw [hturn]

/-- A key names each number once exactly if no two attached threads have come in the same turn. -/
theorem nodup_entries_iff (h : l.Numbered) :
    (l.entries.map (·.id)).Nodup ↔
      ∀ i j, l.AttachedAt i → l.AttachedAt j → turn i = turn j → i = j := by
  rw [entries, List.map_map, attached, List.Nodup, List.pairwise_map, List.pairwise_filter,
    List.pairwise_iff_getElem]
  constructor
  · intro hpairs
    -- the earlier one of two threads is compared with the later one
    have hlt : ∀ i j, i < j → l.AttachedAt i → l.AttachedAt j → turn i ≠ turn j := by
      rintro i j hij ⟨t, ht, hattached⟩ ⟨u, hu, hattached'⟩ hturn
      obtain ⟨hi, rfl⟩ := Array.getElem?_eq_some_iff.mp ht
      obtain ⟨hj, rfl⟩ := Array.getElem?_eq_some_iff.mp hu
      exact hpairs i j hi hj hij hattached hattached' ((h.id_eq_iff ht hu).mpr hturn)
    intro i j hi hj hturn
    rcases Nat.lt_trichotomy i j with hij | hij | hij
    · exact absurd hturn (hlt i j hij hi hj)
    · exact hij
    · exact absurd hturn.symm (hlt j i hij hj hi)
  · intro hturns i j hi hj hij hattached hattached' hid
    have ht : l.get? i = some l.threads[i] := Array.getElem?_eq_getElem hi
    have hu : l.get? j = some l.threads[j] := Array.getElem?_eq_getElem hj
    have hturn := (h.id_eq_iff ht hu).mp hid
    exact absurd (hturns i j ⟨_, ht, hattached⟩ ⟨_, hu, hattached'⟩ hturn) (Nat.ne_of_lt hij)

end Numbered

/-- **Ids are handed out in turn.**  After every history no id is zero, two threads have the same id
exactly if it was the same turn when they were attached, and a key names each id once exactly if
that is true of no two attached threads.  It does so whenever at most 255 threads have been attached
from the oldest attached one on, and at most `2 ^ 32` in all. -/
theorem ids_in_turn (ops : List ThreadListOp) :
    let l := ({} : ThreadList).after ops
    (∀ place t, l.get? place = some t → t.id.raw ≠ 0) ∧
    (∀ i j t u, l.get? i = some t → l.get? j = some u → (t.id = u.id ↔ turn i = turn j)) ∧
    ((l.entries.map (·.id)).Nodup ↔
      ∀ i j, l.AttachedAt i → l.AttachedAt j → turn i = turn j → i = j) ∧
    ∀ oldest, (∀ i, l.AttachedAt i → oldest ≤ i) → l.threads.size ≤ oldest + 255 →
      l.threads.size ≤ 0x100000000 → (l.entries.map (·.id)).Nodup := by
  intro l
  have h : l.Numbered := numbered_empty.after ops
  refine ⟨fun place t ht => h.id_ne_zero ht, fun i j t u ht hu => h.id_eq_iff ht hu,
    h.nodup_entries_iff, ?_⟩
  intro oldest holdest hnear hsize
  have hplace : ∀ i, l.AttachedAt i → oldest ≤ i ∧ i < l.threads.size := by
    rintro i ⟨t, ht, hattached⟩
    exact ⟨holdest i ⟨t, ht, hattached⟩, (Array.getElem?_eq_some_iff.mp ht).1⟩
  refine h.nodup_entries_iff.mpr fun i j hi hj hturn => ?_
  exact turn_inj_of_near hsize hnear (hplace i hi) (hplace j hj) hturn

/-- **Ids meet.**  Of 255 threads the second is detached, and the next one gets the id of the
first. -/
theorem ids_meet :
    let ops := List.replicate 255 (.attach "worker" false) ++ [.detach 1, .attach "late" false]
    let l := ({} : ThreadList).after ops
    l.size = 255 ∧ ¬ (l.entries.map (·.id)).Nodup ∧
      ∃ t u, l.get? 0 = some t ∧ l.get? 255 = some u ∧ t.isAttached = true ∧
        u.isAttached = true ∧ t.id = u.id := by
  intro ops l
  let first : Thread := { id := ⟨1⟩, name := "worker", alloc := .new false }
  let late : Thread := { id := ⟨1⟩, name := "late", alloc := .new false }
  have hfacts : l.size = 255 ∧ l.get? 0 = some first ∧ l.get? 255 = some late := by decide +kernel
  obtain ⟨hsize, hfirst, hlate⟩ := hfacts
  refine ⟨hsize, fun hnodup => ?_, first, late, hfirst, hlate, rfl, rfl, rfl⟩
  have hnumbered : l.Numbered := numbered_empty.after ops
  have hplaces :=
    hnumbered.nodup_entries_iff.mp hnodup 0 255 ⟨first, hfirst, rfl⟩ ⟨late, hlate, rfl⟩ rfl
  cases hplaces

end ThreadList

end TracedMachine
