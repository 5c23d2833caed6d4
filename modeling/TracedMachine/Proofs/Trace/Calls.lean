import TracedMachine.Command
import TracedMachine.Proofs.MethodId
import Mathlib.Algebra.BigOperators.Group.List.Lemmas
import Mathlib.Algebra.GroupWithZero.Nat

/-!
# Proofs — Trace — Calls

The summary of calls in a report on a trace file.  Rows tabulate records if there is one row for
each method that is entered, with its counts (`Trace.Tabulates`); they summarize the records if they
are also in the order of the report (`Trace.Summarizes`).  Two tabulations of the same records are
the same up to order, and the order leaves nothing open, so a summary is determined by how many
records there are of each kind (`Summarizes.unique`, `Tabulates.of_perm`).

Counting can also be done record by record, in two hash tables that are gone through at the end
(`CallTables`).  What one record does to them is `CallTables.Tallies.add` and what a list of records
does is `CallTables.tallies_ofRecords`.  In whatever order the entries come out of the table,
sorting them gives the summary.

**The summary** (`Command.report_summarizes_calls`).  So it is what a report prints, with counts
that add up, and neither the order of the records nor that of the table's entries matters.
-/

namespace TracedMachine

open Trace

namespace Trace

/-- Rows count the calls in records, one row for each method that is entered. -/
structure Tabulates (records : List Record) (rows : List CallCount) : Prop where
  mem_iff : ∀ id, id ∈ rows.map (·.method) ↔ ∃ r ∈ records, r.method = id ∧ r.action = .enter
  nodup : (rows.map (·.method)).Nodup
  calls : ∀ c ∈ rows, c.calls = records.countP fun r => r.method = c.method ∧ r.action = .enter
  unwound : ∀ c ∈ rows, c.unwound = records.countP fun r => r.method = c.method ∧ r.action = .unwind

/-- Rows count the calls in records and are in order: more calls come first, and of methods with as
many calls the one with the lower id. -/
structure Summarizes (records : List Record) (rows : List CallCount) : Prop
    extends Tabulates records rows where
  ordered : rows.Pairwise fun a b =>
    b.calls < a.calls ∨ a.calls = b.calls ∧ a.method.raw < b.method.raw

/-- The methods that records enter, as often as they do. -/
def entered (records : List Record) : List MethodId :=
  (records.filter fun r => r.action = .enter).map (·.method)

theorem length_entered (records : List Record) :
    (entered records).length = records.countP fun r => r.action = .enter := by
  rw [entered, List.length_map, List.countP_eq_length_filter]

theorem count_entered (records : List Record) (id : MethodId) :
    (entered records).count id = countOf records id .enter := by
  rw [entered, List.count_eq_countP, List.countP_map, List.countP_filter, countOf]
  congr 1
  funext r
  simp [beq_eq_decide]

theorem countOf_pos_iff {records : List Record} {id : MethodId} {action : Action} :
    0 < countOf records id action ↔ ∃ r ∈ records, r.method = id ∧ r.action = action := by
  simp only [countOf, List.countP_pos_iff, decide_eq_true_eq]

theorem mem_entered {records : List Record} {id : MethodId} :
    id ∈ entered records ↔ ∃ r ∈ records, r.method = id ∧ r.action = .enter := by
  rw [← List.count_pos_iff, count_entered, countOf_pos_iff]

/-! ### Order -/

theorem CallCount.precedes_iff {a b : CallCount} :
    a.precedes b ↔ b.calls < a.calls ∨ a.calls = b.calls ∧ a.method.raw ≤ b.method.raw :=
  decide_eq_true_iff

theorem CallCount.precedes_trans (a b c : CallCount) (hab : a.precedes b) (hbc : b.precedes c) :
    a.precedes c := by
  rw [precedes_iff, UInt32.le_iff_toNat_le] at *
  omega

theorem CallCount.precedes_total (a b : CallCount) : (a.precedes b || b.precedes a) = true := by
  rw [Bool.or_eq_true, precedes_iff, precedes_iff, UInt32.le_iff_toNat_le, UInt32.le_iff_toNat_le]
  omega

namespace Tabulates

variable {records : List Record} {rows : List CallCount}

/-- Rows in another order. -/
theorem of_perm_rows (h : Tabulates records rows) {rows' : List CallCount}
    (hperm : rows'.Perm rows) : Tabulates records rows' where
  mem_iff := fun id => by rw [(hperm.map _).mem_iff, h.mem_iff]
  nodup := (hperm.map _).nodup_iff.mpr h.nodup
  calls := fun c hc => h.calls c (hperm.mem_iff.mp hc)
  unwound := fun c hc => h.unwound c (hperm.mem_iff.mp hc)

/-- Records in another order. -/
theorem of_perm (h : Tabulates records rows) {records' : List Record}
    (hperm : records'.Perm records) : Tabulates records' rows where
  mem_iff := by
    intro id
    simp only [h.mem_iff, hperm.mem_iff]
  nodup := h.nodup
  calls := fun c hc => by rw [hperm.countP_eq, h.calls c hc]
  unwound := fun c hc => by rw [hperm.countP_eq, h.unwound c hc]

/-- Sorted rows are a summary: no two of them stand for one method, so one of any two comes
first. -/
theorem summarizes (h : Tabulates records rows) :
    Summarizes records (rows.mergeSort CallCount.precedes) := by
  have hsorted := h.of_perm_rows (rows.mergeSort_perm CallCount.precedes)
  have hprecedes := List.pairwise_mergeSort CallCount.precedes_trans CallCount.precedes_total rows
  have hdistinct := List.pairwise_map.mp hsorted.nodup
  refine ⟨hsorted, (hprecedes.and hdistinct).imp ?_⟩
  rintro a b ⟨hab, hne⟩
  rcases CallCount.precedes_iff.mp hab with hmore | ⟨hsame, hle⟩
  · exact .inl hmore
  · refine .inr ⟨hsame, UInt32.lt_of_le_of_ne hle fun hraw => hne ?_⟩
    exact congrArg MethodId.mk hraw

/-- The row of a method is determined. -/
theorem mem_of_mem (h : Tabulates records rows) {rows' : List CallCount}
    (h' : Tabulates records rows') {c : CallCount} (hc : c ∈ rows) : c ∈ rows' := by
  have hid : c.method ∈ rows'.map (·.method) :=
    (h'.mem_iff c.method).mpr ((h.mem_iff c.method).mp (List.mem_map_of_mem hc))
  obtain ⟨c', hc', hmethod⟩ := List.mem_map.mp hid
  have hcalls : c'.calls = c.calls := by rw [h'.calls c' hc', h.calls c hc, hmethod]
  have hunwound : c'.unwound = c.unwound := by rw [h'.unwound c' hc', h.unwound c hc, hmethod]
  have hsame : c' = c := by
    cases c
    cases c'
    simp_all
  exact hsame ▸ hc'

/-- All rows are determined, up to their order. -/
theorem perm (h : Tabulates records rows) {rows' : List CallCount} (h' : Tabulates records rows') :
    rows.Perm rows' := by
  have hrows := List.Nodup.of_map _ h.nodup
  have hrows' := List.Nodup.of_map _ h'.nodup
  exact (List.perm_ext_iff_of_nodup hrows hrows').mpr fun c => ⟨h.mem_of_mem h', h'.mem_of_mem h⟩

/-- The calls add up. -/
theorem sum_calls (h : Tabulates records rows) :
    (rows.map (·.calls)).sum = records.countP fun r => r.action = .enter := by
  have hcalls : ∀ c ∈ rows, c.calls = (entered records).count c.method := fun c hc =>
    (h.calls c hc).trans (count_entered records c.method).symm
  have hids : (rows.map (·.method)).Perm (entered records).dedup := by
    refine (List.perm_ext_iff_of_nodup h.nodup (List.nodup_dedup _)).mpr fun id => ?_
    rw [h.mem_iff, List.mem_dedup, mem_entered]
  calc (rows.map (·.calls)).sum
      = ((rows.map (·.method)).map fun id => (entered records).count id).sum := by
        rw [List.map_map, List.map_congr_left hcalls]
        rfl
    _ = ((entered records).dedup.map fun id => (entered records).count id).sum :=
        (hids.map _).sum_nat
    _ = (entered records).length := (entered records).sum_map_count_dedup_eq_length
    _ = records.countP fun r => r.action = .enter := length_entered records

end Tabulates

/-- **A summary is determined by the records.** -/
theorem Summarizes.unique {records : List Record} {rows rows' : List CallCount}
    (h : Summarizes records rows) (h' : Summarizes records rows') : rows = rows' := by
  refine (h.toTabulates.perm h'.toTabulates).eq_of_pairwise ?_ h.ordered h'.ordered
  intro a b _ _ hab hba
  -- the order is strict, so no two rows come before each other
  rw [UInt32.lt_iff_toNat_lt] at hab hba
  omega

/-! ### The rows of a report -/

theorem enteredIds_eq (records : List Record) :
    enteredIds records = (entered records).foldl (fun ids m => m.insert ids) [] := by
  rw [entered, List.foldl_map, List.foldl_filter, enteredIds]
  simp only [decide_eq_true_eq]

theorem mem_enteredIds {records : List Record} {id : MethodId} :
    id ∈ enteredIds records ↔ ∃ r ∈ records, r.method = id ∧ r.action = .enter := by
  rw [enteredIds_eq, MethodId.mem_foldl_insert, mem_entered]
  simp

theorem nodup_enteredIds (records : List Record) : (enteredIds records).Nodup := by
  have hnone : MethodId.Ascending [] := List.Pairwise.nil
  rw [enteredIds_eq]
  refine (MethodId.ascending_foldl_insert hnone _).imp fun hlt hsame => ?_
  rw [hsame] at hlt
  exact UInt32.lt_irrefl _ hlt

theorem summarizes_callCounts (records : List Record) :
    Summarizes records (callCounts records) := by
  have hids : ((enteredIds records).map (callCount records)).map (·.method) =
      enteredIds records := by
    rw [List.map_map]
    exact List.map_id _
  refine Tabulates.summarizes
    { mem_iff := fun id => by rw [hids, mem_enteredIds]
      nodup := by rw [hids]; exact nodup_enteredIds records
      calls := fun c hc => ?_
      unwound := fun c hc => ?_ }
  · obtain ⟨id, -, rfl⟩ := List.mem_map.mp hc
    rfl
  · obtain ⟨id, -, rfl⟩ := List.mem_map.mp hc
    rfl

/-! ### Counting in hash tables -/

theorem countOf_append_self {r : Record} {action : Action} (h : r.action = action)
    (records : List Record) (id : MethodId) :
    countOf (records ++ [r]) id action =
      countOf records id action + if r.method = id then 1 else 0 := by
  simp [countOf, h, List.countP_singleton]

theorem countOf_append_other {r : Record} {action : Action} (h : r.action ≠ action)
    (records : List Record) (id : MethodId) :
    countOf (records ++ [r]) id action = countOf records id action := by
  simp [countOf, h]

/-- Two tables of counts by method: calls, and calls that a throwable ended. -/
structure CallTables [Hashable MethodId] where
  calls : Std.HashMap MethodId Nat := {}
  unwinds : Std.HashMap MethodId Nat := {}

namespace CallTables

variable [Hashable MethodId]

/-- One more of a method. -/
def bump (t : Std.HashMap MethodId Nat) (id : MethodId) : Std.HashMap MethodId Nat :=
  t.alter id fun n => some (n.getD 0 + 1)

/-- Counts a record. -/
def add (t : CallTables) (r : Record) : CallTables :=
  match r.action with
  | .enter => { t with calls := bump t.calls r.method }
  | .unwind => { t with unwinds := bump t.unwinds r.method }
  | .exit => t

/-- Counts records, one after the other. -/
def ofRecords (records : List Record) : CallTables := records.foldl add {}

/-- The entries of the first table, as they are visited, in the order of the report and with the
counts of the second table. -/
def rows (t : CallTables) (visited : List (MethodId × Nat)) : List CallCount :=
  let sorted := visited.mergeSort fun a b => b.2 < a.2 ∨ a.2 = b.2 ∧ a.1.raw ≤ b.1.raw
  sorted.map fun entry => ⟨entry.1, entry.2, t.unwinds.getD entry.1 0⟩

/-- A table has the counts of an action, and no entry where there is nothing to count. -/
def Counts (t : Std.HashMap MethodId Nat) (action : Action) (records : List Record) : Prop :=
  ∀ id, t[id]? = if countOf records id action = 0 then none else some (countOf records id action)

/-- The tables have counted records. -/
def Tallies (t : CallTables) (records : List Record) : Prop :=
  Counts t.calls .enter records ∧ Counts t.unwinds .unwind records

theorem Counts.bump {t : Std.HashMap MethodId Nat} {action : Action} {records : List Record}
    (h : Counts t action records) {r : Record} (hr : r.action = action) :
    Counts (bump t r.method) action (records ++ [r]) := by
  intro id
  rw [CallTables.bump, Std.HashMap.getElem?_alter, countOf_append_self hr, h r.method, h id]
  by_cases hid : r.method = id
  · subst hid
    by_cases hzero : countOf records r.method action = 0 <;> simp [hzero]
  · simp [hid]

theorem Counts.getElem?_eq_some_iff {t : Std.HashMap MethodId Nat} {action : Action}
    {records : List Record} (h : Counts t action records) {id : MethodId} {n : Nat} :
    t[id]? = some n ↔ n = countOf records id action ∧ 0 < n := by
  rw [h id]
  split
  · simp
    omega
  · rw [Option.some.injEq]
    omega

theorem Counts.getD {t : Std.HashMap MethodId Nat} {action : Action} {records : List Record}
    (h : Counts t action records) (id : MethodId) : t.getD id 0 = countOf records id action := by
  rw [Std.HashMap.getD_eq_getD_getElem?, h id]
  split
  · next hzero => exact hzero.symm
  · rfl

theorem Counts.skip {t : Std.HashMap MethodId Nat} {action : Action} {records : List Record}
    (h : Counts t action records) {r : Record} (hr : r.action ≠ action) :
    Counts t action (records ++ [r]) := by
  intro id
  rw [countOf_append_other hr, h id]

/-- One record. -/
theorem Tallies.add {t : CallTables} {records : List Record} (h : t.Tallies records) (r : Record) :
    (t.add r).Tallies (records ++ [r]) := by
  obtain ⟨hcalls, hunwinds⟩ := h
  unfold CallTables.add
  cases hr : r.action with
  | enter => exact ⟨hcalls.bump hr, hunwinds.skip (by simp [hr])⟩
  | unwind => exact ⟨hcalls.skip (by simp [hr]), hunwinds.bump hr⟩
  | exit => exact ⟨hcalls.skip (by simp [hr]), hunwinds.skip (by simp [hr])⟩

/-- A list of records. -/
theorem Tallies.foldl {t : CallTables} {done : List Record} (h : t.Tallies done)
    (records : List Record) : (records.foldl CallTables.add t).Tallies (done ++ records) := by
  induction records generalizing t done with
  | nil => rwa [List.append_nil]
  | cons r records ih =>
      have hrest := ih (h.add r)
      rwa [List.append_assoc] at hrest

theorem tallies_ofRecords (records : List Record) : (ofRecords records).Tallies records := by
  have hempty : ({} : CallTables).Tallies [] :=
    ⟨fun _ => Std.HashMap.getElem?_empty, fun _ => Std.HashMap.getElem?_empty⟩
  exact hempty.foldl records

/-- **The order of the entries does not matter**: sorted, they are a summary. -/
theorem Tallies.summarizes {t : CallTables} {records : List Record} (h : t.Tallies records)
    {visited : List (MethodId × Nat)} (hvisited : visited.Perm t.calls.toList) :
    Summarizes records (t.rows visited) := by
  obtain ⟨hcalls, hunwinds⟩ := h
  let row (entry : MethodId × Nat) : CallCount := ⟨entry.1, entry.2, t.unwinds.getD entry.1 0⟩
  have hrows : t.rows visited = (visited.map row).mergeSort CallCount.precedes :=
    List.map_mergeSort fun _ _ _ _ => rfl
  have hmem : ∀ id n, (id, n) ∈ visited ↔ n = countOf records id .enter ∧ 0 < n := fun id n => by
    rw [hvisited.mem_iff, Std.HashMap.mem_toList_iff_getElem?_eq_some,
      hcalls.getElem?_eq_some_iff]
  have hids : (visited.map row).map (·.method) = visited.map Prod.fst := by
    rw [List.map_map]
    rfl
  rw [hrows]
  refine Tabulates.summarizes
    { mem_iff := fun id => ?_
      nodup := ?_
      calls := fun c hc => ?_
      unwound := fun c hc => ?_ }
  · rw [hids, ← countOf_pos_iff, List.mem_map]
    constructor
    · rintro ⟨⟨_, n⟩, hentry, rfl⟩
      obtain ⟨rfl, hpos⟩ := (hmem _ n).mp hentry
      exact hpos
    · intro hpos
      exact ⟨(id, countOf records id .enter), (hmem _ _).mpr ⟨rfl, hpos⟩, rfl⟩
  · rw [hids, (hvisited.map _).nodup_iff, Std.HashMap.map_fst_toList_eq_keys]
    exact Std.HashMap.nodup_keys
  · obtain ⟨⟨id, n⟩, hentry, rfl⟩ := List.mem_map.mp hc
    exact ((hmem id n).mp hentry).1
  · obtain ⟨⟨id, n⟩, hentry, rfl⟩ := List.mem_map.mp hc
    exact hunwinds.getD id

end CallTables

end Trace

/-- **The summary of a report.**  A file that was read is reported on with a summary of the calls in
its records, whose counts add up to the number of records that enter a method.  No other rows
summarize these records.  Records in another order have the same summary, and so has whatever comes
of counting them in hash tables, with any hash function and any order of the entries. -/
theorem Command.report_summarizes_calls {bytes : Bytes} {f : TraceFile}
    (hparse : TraceFile.parse bytes = .ok f) (path : String) (withRecords : Bool) :
    ∃ rows,
      (reportOn path withRecords (.ok bytes)).output =
        path :: f.headLine :: (f.threads.map TraceFile.threadLine ++ rows.map f.callLine ++
          if withRecords then f.records.map f.recordLine else []) ∧
      Summarizes f.records rows ∧
      (rows.map (·.calls)).sum = f.records.countP (fun r => r.action = .enter) ∧
      (∀ rows', Summarizes f.records rows' → rows' = rows) ∧
      ∀ records', records'.Perm f.records →
        TraceFile.callLines { f with records := records' } = rows.map f.callLine ∧
        ∀ [Hashable MethodId] (visited : List (MethodId × Nat)),
          visited.Perm (CallTables.ofRecords records').calls.toList →
          (CallTables.ofRecords records').rows visited = rows := by
  have hsummary := summarizes_callCounts f.records
  have hreport : (reportOn path withRecords (.ok bytes)).output = f.report path withRecords := by
    simp only [reportOn, hparse]
  refine ⟨callCounts f.records, hreport, hsummary, hsummary.sum_calls,
    fun rows' h' => h'.unique hsummary, fun records' hperm => ?_⟩
  have hsame : Summarizes records' (callCounts f.records) :=
    ⟨hsummary.toTabulates.of_perm hperm, hsummary.ordered⟩
  constructor
  · have hrows := (summarizes_callCounts records').unique hsame
    exact congrArg (List.map f.callLine) hrows
  · intro _ visited hvisited
    exact ((CallTables.tallies_ofRecords records').summarizes hvisited).unique hsame

/-- A file with three methods, two of which are called equally often. -/
def Sample.tied : TraceFile :=
  { overflowed := false
    threads := [⟨⟨1⟩, "main"⟩]
    methods := [⟨⟨8⟩, "LDemo;", "fill", "(I)I"⟩]
    header := { version := 1, startTime := 7, overflow := 0, entries := 6 }
    records :=
      [⟨⟨1⟩, ⟨8⟩, .enter, 0⟩, ⟨⟨1⟩, ⟨4⟩, .enter, 1⟩, ⟨⟨1⟩, ⟨12⟩, .enter, 2⟩,
        ⟨⟨1⟩, ⟨8⟩, .unwind, 3⟩, ⟨⟨1⟩, ⟨4⟩, .exit, 4⟩, ⟨⟨1⟩, ⟨12⟩, .enter, 5⟩] }

/-- The method with the most calls comes first, and of the other two the one with the lower id.
Counting the records from the last to the first, and going through the table the other way round,
gives the same rows. -/
theorem Command.report_summarizes_calls_tied :
    TraceFile.parse Sample.tied.encode = .ok Sample.tied ∧
    (reportOn "tied.trace" false (.ok Sample.tied.encode)).output =
      ["tied.trace", "  version 1, 6 entries, 0 dropped", "  thread   1 main",
        "           2 calls      0 unwound  0x0000000c",
        "           1 calls      0 unwound  0x00000004",
        "           1 calls      1 unwound  LDemo;.fill(I)I"] ∧
    ∀ [Hashable MethodId],
      let tables := CallTables.ofRecords Sample.tied.records.reverse
      tables.rows tables.calls.toList.reverse = [⟨⟨12⟩, 2, 0⟩, ⟨⟨4⟩, 1, 0⟩, ⟨⟨8⟩, 1, 1⟩] := by
  have hparse : TraceFile.parse Sample.tied.encode = .ok Sample.tied := by decide +kernel
  obtain ⟨rows, houtput, -, -, hunique, hany⟩ := report_summarizes_calls hparse "tied.trace" false
  have hentered : entered Sample.tied.records = [⟨8⟩, ⟨4⟩, ⟨12⟩, ⟨12⟩] := rfl
  have hrows : Summarizes Sample.tied.records [⟨⟨12⟩, 2, 0⟩, ⟨⟨4⟩, 1, 0⟩, ⟨⟨8⟩, 1, 1⟩] :=
    { mem_iff := fun id => by
        rw [← mem_entered, hentered]
        simp [or_comm, or_left_comm, or_assoc]
      nodup := by decide
      calls := by decide
      unwound := by decide
      ordered := by decide }
  have hsame := hunique _ hrows
  refine ⟨hparse, ?_, ?_⟩
  · rw [houtput, ← hsame]
    rfl
  · intro _ tables
    rw [hsame]
    exact (hany _ (List.reverse_perm _)).2 _ (List.reverse_perm _)

end TracedMachine
