import TracedMachine.AllocCounters
import Mathlib.Algebra.GroupWithZero.Nat
import Mathlib.Data.List.Induction
import Mathlib.Data.List.Nodup

/-!
# Proofs — AllocCounters

What allocation counters have counted.  Of the events of a machine they take those that tell of
memory (`allocEvents`), and what they come to is said without counting: for each kind of event there
is a list of the sizes, and a tally has the lengths and the sums of three such lists, as words
(`AllocStats.total`).  Counting comes to that, one event after the other (`AllocStats.count_total`):
counters that are on have counted what they were shown since they were started
(`AllocCounters.counting`).

Counts can be added, field by field.  If events are listed with places, what all of them come to is
the sum of what they come to place by place (`AllocStats.sum_share`).
-/

namespace TracedMachine

/-! ### Sizes -/

namespace AllocEvent

/-- The size of an object that was allocated. -/
def allocated? : AllocEvent → Option Nat
  | allocated bytes => some bytes
  | _ => none

/-- The size of an object that could not be allocated. -/
def failed? : AllocEvent → Option Nat
  | failed bytes => some bytes
  | _ => none

/-- The size of an object that was freed. -/
def freed? : AllocEvent → Option Nat
  | freed bytes => some bytes
  | _ => none

/-- The same event in the heap, of memory that was allocated or freed outside of it. -/
def outside? : AllocEvent → Option AllocEvent
  | externalAllocated bytes => some (.allocated bytes)
  | externalFailed bytes => some (.failed bytes)
  | externalFreed bytes => some (.freed bytes)
  | _ => none

end AllocEvent

/-- What the machine reports of memory. -/
def Event.alloc? : Event → Option AllocEvent
  | alloc e => some e
  | _ => none

/-- What of the events tells of memory. -/
def allocEvents (es : List Event) : List AllocEvent := es.filterMap Event.alloc?

@[simp] theorem allocEvents_nil : allocEvents [] = [] := rfl

@[simp] theorem allocEvents_append (es more : List Event) :
    allocEvents (es ++ more) = allocEvents es ++ allocEvents more :=
  List.filterMap_append

/-! ### Totals -/

/-- What the events come to in one tally: how many there are of each kind, and their bytes, as
words. -/
def Tally.total (es : List AllocEvent) : Tally where
  allocCount := (es.filterMap AllocEvent.allocated?).length.toUInt64
  allocSize := (es.filterMap AllocEvent.allocated?).sum.toUInt64
  failedCount := (es.filterMap AllocEvent.failed?).length.toUInt64
  failedSize := (es.filterMap AllocEvent.failed?).sum.toUInt64
  freeCount := (es.filterMap AllocEvent.freed?).length.toUInt64
  freeSize := (es.filterMap AllocEvent.freed?).sum.toUInt64

/-- What the events come to. -/
def AllocStats.total (trackExternal : Bool) (es : List AllocEvent) : AllocStats where
  heap := .total es
  collections := (es.count .collected).toUInt64
  external := if trackExternal then some (.total (es.filterMap AllocEvent.outside?)) else none

/-! ### Counting -/

namespace Tally

/-- Counts an event of the heap. -/
def count (t : Tally) : AllocEvent → Tally
  | .allocated bytes => t.allocated bytes
  | .failed bytes => t.failed bytes
  | .freed bytes => t.freed bytes
  | _ => t

/-- Counting an event comes to one event more. -/
theorem count_total (es : List AllocEvent) (e : AllocEvent) :
    (total es).count e = total (es ++ [e]) := by
  cases e <;>
    simp [count, allocated, failed, freed, total, List.filterMap_cons, AllocEvent.allocated?,
      AllocEvent.failed?, AllocEvent.freed?]

end Tally

namespace AllocStats

/-- Each event is counted in its place: in the heap, among the collections, or outside. -/
theorem count_eq (s : AllocStats) (e : AllocEvent) :
    s.count e =
      { heap := s.heap.count e
        collections := s.collections + if e = .collected then 1 else 0
        external := s.external.map fun t => e.outside?.elim t t.count } := by
  rcases s with ⟨heap, collections, external⟩
  cases e <;> simp [count, Tally.count, AllocEvent.outside?]

theorem count_total (trackExternal : Bool) (es : List AllocEvent) (e : AllocEvent) :
    (total trackExternal es).count e = total trackExternal (es ++ [e]) := by
  have hcollections : (es.count .collected).toUInt64 + (if e = .collected then 1 else 0) =
      ((es ++ [e]).count .collected).toUInt64 := by
    by_cases he : e = .collected
    · simp [he]
    · simp [he]
  have houtside : ∀ t, Tally.total (es.filterMap AllocEvent.outside?) = t →
      e.outside?.elim t t.count = Tally.total ((es ++ [e]).filterMap AllocEvent.outside?) := by
    rintro _ rfl
    rw [List.filterMap_append]
    cases he : e.outside? with
    | none => simp [he]
    | some inside => simp [he, Tally.count_total]
  rw [count_eq]
  simp only [total, Tally.count_total, hcollections]
  cases trackExternal with
  | false => rfl
  | true => simp only [if_true, Option.map_some, houtside _ rfl]

theorem total_nil (trackExternal : Bool) : total trackExternal [] = zero trackExternal := by
  cases trackExternal <;> rfl

end AllocStats

namespace AllocCounters

/-- Counters that are on and have counted these events. -/
def counting (trackExternal : Bool) (es : List AllocEvent) : AllocCounters :=
  { enabled := true, stats := .total trackExternal es }

theorem start_eq (c : AllocCounters) : c.start = counting c.tracksExternal [] := by
  rw [start, counting, AllocStats.total_nil]

theorem record_counting (trackExternal : Bool) (es : List AllocEvent) (e : AllocEvent) :
    (counting trackExternal es).record e = counting trackExternal (es ++ [e]) := by
  simp only [record, counting, if_true, AllocStats.count_total]

/-- Counters that are on count all that tells of memory. -/
theorem observe_counting (trackExternal : Bool) (es : List AllocEvent) (e : Event) :
    (counting trackExternal es).observe e = counting trackExternal (es ++ allocEvents [e]) := by
  cases e with
  | alloc e => exact record_counting trackExternal es e
  | method | instruction | passBegan | passEnded | notice =>
      exact congrArg (counting trackExternal) (List.append_nil es).symm

theorem foldl_observe_counting (trackExternal : Bool) (es : List AllocEvent)
    (shown : List Event) :
    shown.foldl observe (counting trackExternal es) =
      counting trackExternal (es ++ allocEvents shown) := by
  induction shown generalizing es with
  | nil => exact congrArg (counting trackExternal) (List.append_nil es).symm
  | cons e shown ih =>
      rw [List.foldl_cons, observe_counting, ih, List.append_assoc, ← allocEvents_append,
        List.singleton_append]

/-! ### Memory outside the heap -/

@[simp] theorem tracksExternal_new (trackExternal : Bool) :
    (new trackExternal).tracksExternal = trackExternal := by
  cases trackExternal <;> rfl

@[simp] theorem tracksExternal_counting (trackExternal : Bool) (es : List AllocEvent) :
    (counting trackExternal es).tracksExternal = trackExternal := by
  cases trackExternal <;> rfl

@[simp] theorem tracksExternal_start (c : AllocCounters) :
    c.start.tracksExternal = c.tracksExternal := by
  rw [start_eq, tracksExternal_counting]

@[simp] theorem tracksExternal_record (c : AllocCounters) (e : AllocEvent) :
    (c.record e).tracksExternal = c.tracksExternal := by
  unfold record
  split
  · rw [AllocStats.count_eq]
    exact Option.isSome_map
  · rfl

end AllocCounters

/-! ### Sums of counts -/

/-- The sums of two tallies. -/
def Tally.add (t u : Tally) : Tally where
  allocCount := t.allocCount + u.allocCount
  allocSize := t.allocSize + u.allocSize
  failedCount := t.failedCount + u.failedCount
  failedSize := t.failedSize + u.failedSize
  freeCount := t.freeCount + u.freeCount
  freeSize := t.freeSize + u.freeSize

namespace Tally

theorem add_comm (t u : Tally) : t.add u = u.add t := by
  simp only [add, UInt64.add_comm]

theorem add_count (t u : Tally) (e : AllocEvent) : t.add (u.count e) = (t.add u).count e := by
  cases e <;> simp only [add, count, allocated, failed, freed, UInt64.add_assoc]

end Tally

namespace AllocStats

/-- The sums of two threads' counts, field by field. -/
def add (s t : AllocStats) : AllocStats where
  heap := s.heap.add t.heap
  collections := s.collections + t.collections
  external := s.external.bind fun a => t.external.map a.add

/-- The sums of all threads' counts. -/
def sum (trackExternal : Bool) (ss : List AllocStats) : AllocStats :=
  ss.foldr add (zero trackExternal)

theorem add_comm (s t : AllocStats) : s.add t = t.add s := by
  rcases s with ⟨heap, collections, external⟩
  rcases t with ⟨heap', collections', external'⟩
  simp only [add, Tally.add_comm heap heap', UInt64.add_comm collections collections']
  cases external with
  | none => cases external' <;> rfl
  | some a =>
      cases external' with
      | none => rfl
      | some b => simp only [Option.bind_some, Option.map_some, Tally.add_comm a b]

theorem add_count (s t : AllocStats) (e : AllocEvent) : s.add (t.count e) = (s.add t).count e := by
  rcases s with ⟨heap, collections, external⟩
  rcases t with ⟨heap', collections', external'⟩
  rw [count_eq, count_eq]
  simp only [add, Tally.add_count, UInt64.add_assoc]
  cases external with
  | none => rfl
  | some a =>
      cases external' with
      | none => rfl
      | some b => cases e.outside? <;> simp [Tally.add_count]

theorem count_add (s t : AllocStats) (e : AllocEvent) : (s.count e).add t = (s.add t).count e := by
  rw [add_comm, add_count, add_comm]

theorem zero_add_zero (trackExternal : Bool) :
    (zero trackExternal).add (zero trackExternal) = zero trackExternal := by
  cases trackExternal <;> decide

/-- One of the threads counts an event. -/
theorem sum_count {trackExternal : Bool} {places : List Nat} (hnodup : places.Nodup) {place : Nat}
    (hplace : place ∈ places) {f g : Nat → AllocStats} {e : AllocEvent}
    (hcounts : g place = (f place).count e) (hothers : ∀ p, p ≠ place → g p = f p) :
    sum trackExternal (places.map g) = (sum trackExternal (places.map f)).count e := by
  induction places with
  | nil => cases hplace
  | cons p places ih =>
      obtain ⟨hnew, hnodup⟩ := List.nodup_cons.mp hnodup
      show (g p).add (sum _ (places.map g)) = ((f p).add (sum _ (places.map f))).count e
      rcases List.mem_cons.mp hplace with rfl | hplace
      · have hsame : places.map g = places.map f :=
          List.map_congr_left fun p hp => hothers p fun hpp => hnew (hpp ▸ hp)
        rw [hcounts, hsame, count_add]
      · rw [hothers p fun hpp => hnew (hpp ▸ hplace), ih hnodup hplace, add_count]

end AllocStats

/-- What is listed for a place. -/
def share (place : Nat) (es : List (Nat × AllocEvent)) : List AllocEvent :=
  (es.filter (·.1 = place)).map Prod.snd

theorem share_append (place : Nat) (es more : List (Nat × AllocEvent)) :
    share place (es ++ more) = share place es ++ share place more := by
  rw [share, List.filter_append, List.map_append]
  rfl

theorem share_map (place other : Nat) (es : List AllocEvent) :
    share place (es.map fun e => (other, e)) = if place = other then es else [] := by
  by_cases h : place = other
  · have hall : (es.map fun e => (other, e)).filter (·.1 = place) = es.map fun e => (other, e) := by
      simp [List.filter_eq_self, h]
    rw [share, hall, List.map_map, if_pos h]
    exact List.map_id _
  · have hnone : (es.map fun e => (other, e)).filter (·.1 = place) = [] := by
      simp [List.filter_eq_nil_iff, Ne.symm h]
    rw [share, hnone, if_neg h]
    rfl

/-- **Totals add up.**  What events come to is the sum of what they come to place by place. -/
theorem AllocStats.sum_share {places : List Nat} (hnodup : places.Nodup) (trackExternal : Bool)
    {es : List (Nat × AllocEvent)} (hplaces : ∀ x ∈ es, x.1 ∈ places) :
    sum trackExternal (places.map fun p => total trackExternal (share p es)) =
      total trackExternal (es.map Prod.snd) := by
  induction es using List.reverseRecOn with
  | nil =>
      have hzero : ∀ p, total trackExternal (share p []) = zero trackExternal :=
        fun p => total_nil trackExternal
      simp only [hzero, List.map_nil, total_nil]
      clear hplaces hnodup
      induction places with
      | nil => rfl
      | cons p places ih =>
          show (zero trackExternal).add (sum trackExternal (places.map fun _ => _)) = _
          rw [ih, zero_add_zero]
  | append_singleton es x ih =>
      obtain ⟨place, e⟩ := x
      have hplace : place ∈ places := hplaces _ (List.mem_append_right _ List.mem_cons_self)
      rw [List.map_append, List.map_singleton, ← count_total,
        ← ih fun x hx => hplaces x (List.mem_append_left _ hx)]
      refine sum_count hnodup hplace ?_ fun p hp => ?_
      · have hown : share place [(place, e)] = [e] :=
          (share_map place place [e]).trans (if_pos rfl)
        rw [share_append, hown, count_total]
      · have hnone : share p [(place, e)] = [] := (share_map p place [e]).trans (if_neg hp)
        rw [share_append, hnone, List.append_nil]

end TracedMachine
