import TracedMachine.Proofs.Trace.RoundTrip
import TracedMachine.Proofs.Vm.History

/-!
# Proofs — Vm — ReadBack

Which traces of a virtual machine can be read back.  The trace of a machine names the threads that
are attached and the methods that were recorded.  The names come from whoever attaches threads and
loads modules, and they are written into the lines of the key as they are.

**Reading back** (`LoggedVm.stopped_trace_reads_back_iff`).  After any history, a trace that is
stopped is written, whatever the names are.  It is read back as it was recorded if and only if the
names of the attached threads have no line feed, those of the recorded methods have no line feed
and no tab, the records can be counted in 32 bits, and the ids of the recorded methods stand for
them (`Vm.Legible`).  The last two are a matter of size only: they hold as long as the buffer has
room for fewer than `2 ^ 32` records and fewer than `2 ^ 30 - 4` methods have been loaded.

A thread's name with a line feed is enough for a trace that is written and that nobody can read
(`LoggedVm.unreadable_trace`).
-/

namespace TracedMachine

open Trace

/-- An event of a method is kept. -/
def OpenLog.Keeps (l : OpenLog) (id : MethodId) : Prop := ∃ e ∈ l.kept, e.method = id

namespace Vm

/-- A file tells what an open trace has recorded. -/
structure Tells (vm : Vm) (l : OpenLog) (f : TraceFile) : Prop where
  records : f.records.map (fun r => (r.thread, r.method, r.action)) =
    l.kept.map fun e => (e.thread, e.method, e.action)
  threads : f.threads = vm.threads.entries
  /-- Every recorded method has its class, its name and its signature. -/
  methods : ∀ m ∈ vm.methods.methods, l.Keeps m.id → f.method? m.id = some m.entry

/-- Bytes are read as a file that tells what an open trace has recorded. -/
def ReadsBack (vm : Vm) (l : OpenLog) (bytes : Bytes) : Prop :=
  ∃ f, TraceFile.parse bytes = .ok f ∧ vm.Tells l f

/-- The names in the key of an open trace fit their lines. -/
structure NamesFit (vm : Vm) (l : OpenLog) : Prop where
  threads : ∀ t ∈ vm.threads.entries, t.FitsLine
  methods : ∀ m ∈ vm.methods.methods, l.Keeps m.id → m.entry.FitsLine

/-- The names fit, and counts and ids are large enough. -/
structure Legible (vm : Vm) (l : OpenLog) : Prop where
  names : vm.NamesFit l
  counted : l.entries < 2 ^ 32
  named : ∀ m ∈ vm.methods.methods, l.Keeps m.id → vm.key.entry m.id = m.entry

end Vm

/-! ### The file of a session -/

theorem Session.low_bits_records {s : Session} {r : Record} (hr : r ∈ s.records) :
    r.method.raw % 4 = 0 := by
  obtain ⟨slot, -, hslot⟩ := List.mem_filterMap.mp hr
  obtain ⟨action, -, rfl⟩ := Option.map_eq_some_iff.mp hslot
  exact MethodId.low_bits_ofWord slot.word

/-- If the names fit and the records can be counted, the file of a session is read as it was
written.  Ids are rounded when they are recorded, so there is nothing left to clear when they are
read. -/
theorem Session.parse_file {s : Session} {key : TraceKey} (hcounted : s.records.length < 2 ^ 32)
    (hthreads : ∀ t ∈ key.threads, t.FitsLine) (hmethods : ∀ m ∈ (s.file key).methods, m.FitsLine) :
    TraceFile.parse (s.file key).encode = .ok (s.file key) := by
  have hentries : (s.file key).header.entries.toNat = s.records.length :=
    Nat.mod_eq_of_lt hcounted
  have hrecords : s.records.map Record.cleared = s.records :=
    TraceFile.map_cleared fun r hr => low_bits_records hr
  have hoverflowed : (s.file key).overflowed = ((s.file key).header.overflow != 0) := decide_not
  rw [TraceFile.parse_encode rfl hentries hthreads hmethods, ← hoverflowed]
  show Except.ok { s.file key with records := s.records.map Record.cleared } = _
  rw [hrecords]
  rfl

namespace Vm

/-! ### The key of a machine -/

variable {vm : Vm} {l : OpenLog}

theorem id_key {id : MethodId} {m : MethodEntry} (h : vm.key.method? id = some m) : m.id = id := by
  obtain ⟨method, hmethod, rfl⟩ := Option.map_eq_some_iff.mp h
  exact (MethodTable.get?_eq_some hmethod).2

/-- What the key says of an id fits its line, if the names of recorded methods do. -/
theorem NamesFit.entry (h : vm.NamesFit l) {id : MethodId}
    (hid : l.Keeps id ∨ id = .collection ∨ id = .classPreparation) :
    (vm.key.entry id).FitsLine := by
  have hgc : ∀ text ∈ ["Lregvm/system/VMDebug;", "(gc)", "()V"],
      '\n' ∉ text.toList ∧ '\t' ∉ text.toList := by decide
  have hprep : ∀ text ∈ ["Lregvm/system/VMDebug;", "(class prep)", "()V"],
      '\n' ∉ text.toList ∧ '\t' ∉ text.toList := by decide
  have hunknown : ∀ text ∈ ["(unknown)", "(unknown)", "()V"],
      '\n' ∉ text.toList ∧ '\t' ∉ text.toList := by decide
  unfold TraceKey.entry
  split
  · exact hgc
  · next hcollection =>
    split
    · exact hprep
    · next hpreparation =>
      cases hm : vm.key.method? id with
      | none => exact hunknown
      | some entry =>
          obtain ⟨m, hget, rfl⟩ := Option.map_eq_some_iff.mp hm
          obtain ⟨hmem, rfl⟩ := MethodTable.get?_eq_some hget
          exact h.methods m hmem (hid.resolve_right fun h => h.elim hcollection hpreparation)

/-- Loaded methods are called by their names in the key, as long as their ids are their own. -/
theorem entry_key (h : vm.methods.Numbered) (hsize : vm.methods.size < 2 ^ 30 - 4) {m : Method}
    (hm : m ∈ vm.methods.methods) : vm.key.entry m.id = m.entry := by
  obtain ⟨hcollection, hpreparation⟩ := h.not_synthetic hsize hm
  have hget : vm.methods.get? m.id = some m :=
    ((h.identifies hsize).get?_iff m.id m).mpr ⟨Array.mem_toList_iff.mpr hm, rfl⟩
  rw [TraceKey.entry, if_neg hcollection, if_neg hpreparation]
  simp only [key, hget, Option.map_some, Option.getD_some]

/-- The key of a file has the entry of every id that it names. -/
theorem method?_file {id : MethodId} (hid : id ∈ tracedIds l.session.records) :
    (l.session.file vm.key).method? id = some (vm.key.entry id) := by
  have hids : ∀ id, (vm.key.entry id).id = id := TraceKey.id_entry fun _ _ => id_key
  show (((tracedIds l.session.records).map vm.key.entry).find? fun m => m.id = id) = _
  rw [List.find?_map]
  have hfound : ((tracedIds l.session.records).find?
      ((fun m => decide (m.id = id)) ∘ vm.key.entry)).isSome :=
    List.find?_isSome.mpr ⟨id, hid, by simp [hids]⟩
  obtain ⟨found, hsome⟩ := Option.isSome_iff_exists.mp hfound
  have hself : found = id := by
    have hp := List.find?_some hsome
    simpa [hids] using hp
  rw [hsome, hself]
  rfl

/-! ### What is written -/

section

variable (hnumbered : vm.methods.Numbered) (hevents : ∀ e ∈ l.events, vm.methods.Names e.method)
include hnumbered hevents

/-- Recorded ids have their low bits clear, so they are not lost. -/
theorem ofWord_kept {e : LoggedEvent} (he : e ∈ l.kept) :
    MethodId.ofWord e.method.raw = e.method := by
  apply MethodId.ofWord_raw
  rcases hevents e (List.mem_of_mem_take he) with hid | hid | ⟨m, hm, hid⟩
  · rw [hid]
    decide
  · rw [hid]
    decide
  · rw [← hid]
    exact hnumbered.low_bits hm

theorem mem_tracedIds_session {id : MethodId} :
    id ∈ tracedIds l.session.records ↔
      l.Keeps id ∨ id = .collection ∨ id = .classPreparation := by
  have hkept : (∃ r ∈ l.session.records, id = r.method) ↔ l.Keeps id := by
    rw [OpenLog.records_session]
    constructor
    · rintro ⟨r, hr, rfl⟩
      obtain ⟨e, he, rfl⟩ := List.mem_map.mp hr
      exact ⟨e, he, (ofWord_kept hnumbered hevents he).symm⟩
    · rintro ⟨e, he, rfl⟩
      exact ⟨l.record e, List.mem_map_of_mem he, (ofWord_kept hnumbered hevents he).symm⟩
  rw [mem_tracedIds, hkept]

/-- If the names fit and the records can be counted, the file is read as it was written. -/
theorem parse_file (hnames : vm.NamesFit l) (hcounted : l.entries < 2 ^ 32) :
    TraceFile.parse (l.session.file vm.key).encode = .ok (l.session.file vm.key) := by
  have hlength : l.session.records.length = l.entries := by
    rw [OpenLog.records_session, List.length_map, l.length_kept]
  refine Session.parse_file (hlength ▸ hcounted) hnames.threads fun m hm => ?_
  obtain ⟨id, hid, rfl⟩ := List.mem_map.mp hm
  exact hnames.entry ((mem_tracedIds_session hnumbered hevents).mp hid)

/-- A file that is read as it was written tells what was recorded, if ids stand for methods. -/
theorem tells_file (hnamed : ∀ m ∈ vm.methods.methods, l.Keeps m.id → vm.key.entry m.id = m.entry) :
    vm.Tells l (l.session.file vm.key) where
  records := by
    show l.session.records.map _ = _
    rw [OpenLog.records_session, List.map_map]
    refine List.map_congr_left fun e he => ?_
    exact congrArg (fun id => (e.thread, id, e.action)) (ofWord_kept hnumbered hevents he)
  threads := rfl
  methods := by
    intro m hm hkept
    rw [method?_file ((mem_tracedIds_session hnumbered hevents).mpr (.inl hkept)),
      hnamed m hm hkept]

/-- **Reading back.** -/
theorem readsBack_iff :
    vm.ReadsBack l (l.session.file vm.key).encode ↔ vm.Legible l := by
  constructor
  · rintro ⟨f, hparse, htells⟩
    have hread := TraceFile.faithful_of_parse hparse
    have hnames : vm.NamesFit l := by
      refine ⟨fun t ht => hread.threads t (htells.threads ▸ ht), fun m hm hkept => ?_⟩
      exact hread.methods _ (List.mem_of_find?_eq_some (htells.methods m hm hkept))
    have hcounted : l.entries < 2 ^ 32 := by
      have hlength := congrArg List.length htells.records
      rw [List.length_map, List.length_map, l.length_kept] at hlength
      have hentries : f.header.entries.toNat = f.records.length := hread.entries
      rw [← hlength, ← hentries]
      exact f.header.entries.toNat_lt
    refine ⟨hnames, hcounted, fun m hm hkept => ?_⟩
    -- the file that was read is the one that was written
    have hsame := hparse.symm.trans (parse_file hnumbered hevents hnames hcounted)
    cases hsame
    have hid := (mem_tracedIds_session hnumbered hevents).mpr (.inl hkept)
    exact Option.some.inj ((method?_file hid).symm.trans (htells.methods m hm hkept))
  · rintro ⟨hnames, hcounted, hnamed⟩
    exact ⟨_, parse_file hnumbered hevents hnames hcounted, tells_file hnumbered hevents hnamed⟩

end

end Vm

/-- **Traces that can be read back.**  After any history, a trace whose sink takes everything is
stopped and written, and its events are of loaded methods or of synthetic ones.  It is read back as
it was recorded if and only if it is legible; in a machine with few enough methods, and with a
buffer for few enough records, that is if and only if the names fit their lines. -/
theorem LoggedVm.stopped_trace_reads_back_iff (heap : HeapSettings) (settings : ProfilerSettings)
    (log : Log) (ops : List VmOp) {l : OpenLog}
    (hopen : ((create heap settings log).after ops).log.opened = some l)
    (hroom : l.sink.room = none) (hflush : l.sink.flushFault = none) :
    let vm := ((create heap settings log).after ops).vm
    ∃ summary sink bytes,
      (vm.profiler.stopTracing vm.key).value = { result := .ok summary, sink := some sink } ∧
      sink.held = l.sink.held ++ bytes ∧
      (∀ e ∈ l.kept, vm.methods.Names e.method) ∧
      (vm.ReadsBack l bytes ↔ vm.Legible l) ∧
      (vm.methods.size < 2 ^ 30 - 4 → l.capacity < 2 ^ 32 → (vm.Legible l ↔ vm.NamesFit l)) := by
  have hsound := (sound_create heap settings log).after ops
  generalize (create heap settings log).after ops = s at hopen hsound
  have hevents := hsound.events l hopen
  have hsession : s.vm.profiler.recorder.session = some l.session := by
    rw [hsound.recorder, EventLog.recorder, hopen]
    rfl
  let bytes := (l.session.file s.vm.key).encode
  have hwritten := Sink.writeOut_lossless hroom hflush bytes
  refine ⟨l.session.summary, { l.sink with held := l.sink.held ++ bytes }, bytes, ?_, rfl, ?_, ?_,
    ?_⟩
  · rw [Profiler.value_stopTracing, Recorder.value_stop hsession hwritten]
  · exact fun e he => hevents e (List.mem_of_mem_take he)
  · exact Vm.readsBack_iff hsound.numbered hevents
  · intro hsize hcapacity
    have hcounted : l.entries < 2 ^ 32 := Nat.lt_of_le_of_lt (Nat.min_le_right _ _) hcapacity
    exact ⟨fun h => h.names, fun h =>
      ⟨h, hcounted, fun m hm _ => Vm.entry_key hsound.numbered hsize hm⟩⟩

/-- A call that makes an array, traced from its start. -/
def Sample.tracedFill : List VmOp :=
  [.attach "main" 8, .load Demo.workload, .ask (.startTracing (.writer {}) 100 .none),
    .work 0 (.invoke 6 0 1 [1])]

/-- The machine after that call. -/
def Sample.filledVm : LoggedVm := (LoggedVm.create { limit := 100 } {} {}).after Sample.tracedFill

/-- The trace of the call is read back, with the class that is prepared for the array. -/
theorem LoggedVm.stopped_trace_reads_back_fill :
    ∃ l, Sample.filledVm.log.opened = some l ∧ l.sink.room = none ∧ l.sink.flushFault = none ∧
      l.kept.map (fun e => (e.method, e.action)) =
        [(⟨8⟩, .enter), (.classPreparation, .enter), (.classPreparation, .exit), (⟨8⟩, .exit)] ∧
      ∃ summary sink,
        (Sample.filledVm.vm.profiler.stopTracing Sample.filledVm.vm.key).value =
          { result := .ok summary, sink := some sink } ∧
        Sample.filledVm.vm.ReadsBack l sink.held := by
  have hlog : Sample.filledVm.log.opened.map
      (fun l => (l.sink, l.capacity, l.kept.map fun e => (e.method, e.action))) =
        some ({}, 7, [(⟨8⟩, .enter), (.classPreparation, .enter), (.classPreparation, .exit),
          (⟨8⟩, .exit)]) := by
    decide +kernel
  have hthreads : ∀ t ∈ Sample.filledVm.vm.threads.entries, t.FitsLine := by decide +kernel
  have hmethods : ∀ m ∈ Sample.filledVm.vm.methods.methods, m.entry.FitsLine := by decide +kernel
  have hsize : Sample.filledVm.vm.methods.size < 2 ^ 30 - 4 := by decide +kernel
  obtain ⟨l, hopen, hl⟩ := Option.map_eq_some_iff.mp hlog
  obtain ⟨hsink, hcapacity, hkept⟩ := Prod.mk.inj hl |>.imp_right Prod.mk.inj
  have hroom : l.sink.room = none := by rw [hsink]
  have hflush : l.sink.flushFault = none := by rw [hsink]
  obtain ⟨summary, sink, bytes, hstopped, hheld, -, hiff, hsmall⟩ :=
    stopped_trace_reads_back_iff { limit := 100 } {} {} Sample.tracedFill hopen hroom hflush
  refine ⟨l, hopen, hroom, hflush, hkept, summary, sink, hstopped, ?_⟩
  rw [hheld, hsink]
  exact hiff.mpr ((hsmall hsize (by omega)).mpr ⟨hthreads, fun m hm _ => hmethods m hm⟩)

/-- The name of a thread has a line feed: its trace is written, and cannot be read. -/
theorem LoggedVm.unreadable_trace :
    let vm := ((create { limit := 100 } {} {}).after
      [.attach "a\nb" 8, .ask (.startTracing (.writer {}) 100 .none)]).vm
    ∃ summary sink, (vm.profiler.stopTracing vm.key).value =
        { result := .ok summary, sink := some sink } ∧
      TraceFile.parse sink.held = .error (.malformedKey "b") := by
  refine ⟨_, _, rfl, ?_⟩
  decide +kernel

end TracedMachine
