import TracedMachine.Proofs.Vm.ReadBack

/-!
# Proofs — Vm — Identity

Ids stand for methods.  The table of a machine holds the methods of all the modules that have been
loaded into it, numbered in the order of loading, however many modules they came in
(`LoggedVm.methods_after`).

**Identity** (`MethodTable.ids_identify_methods`).  Up to `0x3ffffffb` methods have ids of their
own: all are different, none is zero or synthetic, none has its low bits in use, and the table
answers to them and to no others.  A trace that ends under a key made from such a table gives every
registered method that it has recorded its own class, name and signature, although an id is put into
a word with an action and taken out again twice on the way: once in the buffer, once in the bytes.
Which events were recorded, and with what other ids, does not matter.  One method more, and its id
is the one that stands for collections.
-/

namespace TracedMachine

open Trace

/-! ### The methods of a machine -/

/-- The methods that are loaded. -/
def VmOp.loads : VmOp → List MethodDef
  | load m => m.methods
  | _ => []

namespace LoggedVm

/-- One step of a history loads what it says. -/
theorem methods_perform (s : LoggedVm) (op : VmOp) :
    (s.perform op).vm.methods = (s.vm.methods.registerAll op.loads).2 := by
  cases op with
  | load m => rfl
  | attach | detach | changeAlloc => rfl
  | work place op =>
      obtain hlacks | ⟨work, thread, stack, -, -, -, hdone⟩ := s.perform_work_cases place op
      · rw [hlacks.perform_eq]
        rfl
      · rw [hdone]
        rfl
  | ask r =>
      obtain ⟨log, hvm⟩ := r.perform_eq s.vm
      simp only [perform, hvm]
      rfl

/-- The table of a machine is made by registering all that is loaded. -/
theorem methods_after (s : LoggedVm) (ops : List VmOp) :
    (s.after ops).vm.methods = (s.vm.methods.registerAll (ops.flatMap VmOp.loads)).2 := by
  induction ops generalizing s with
  | nil => rfl
  | cons op ops ih =>
      calc ((s.perform op).after ops).vm.methods
          = ((s.perform op).vm.methods.registerAll (ops.flatMap VmOp.loads)).2 := ih (s.perform op)
        _ = ((s.vm.methods.registerAll op.loads).2.registerAll (ops.flatMap VmOp.loads)).2 := by
            rw [methods_perform]
        _ = (s.vm.methods.registerAll ((op :: ops).flatMap VmOp.loads)).2 := by
            rw [List.flatMap_cons, MethodTable.registerAll_append]

end LoggedVm

/-! ### Methods in a trace -/

/-- A file names the methods among the events of a trace. -/
structure TraceFile.NamesMethods (f : TraceFile) (l : OpenLog) (methods : List Method) : Prop where
  /-- The event of a method becomes a record of that method, which can be read from its bytes. -/
  records : ∀ (n : Nat) (e : LoggedEvent), l.kept[n]? = some e →
    ∀ m ∈ methods, e.method = m.id → ∃ r, f.records[n]? = some r ∧ r.thread = e.thread ∧
      r.method = m.id ∧ r.action = e.action ∧ Record.decode? r.encode = some r
  /-- The records of a method go by its own class, name and signature. -/
  names : ∀ r ∈ f.records, ∀ m ∈ methods, r.method = m.id → f.method? r.method = some m.entry

/-- The file of a trace names the methods of the machine. -/
theorem Vm.namesMethods_file {vm : Vm} (h : vm.methods.Numbered)
    (hsize : vm.methods.size < 2 ^ 30 - 4) (l : OpenLog) :
    (l.session.file vm.key).NamesMethods l vm.methods.methods.toList where
  records := by
    intro n e he m hm hid
    have hlow : m.id.raw % 4 = 0 := h.low_bits (Array.mem_toList_iff.mp hm)
    have hmethod : (l.record e).method = m.id := by
      rw [← MethodId.ofWord_raw hlow, ← hid]
      rfl
    have hrecord : (l.session.file vm.key).records[n]? = some (l.record e) := by
      show l.session.records[n]? = _
      rw [OpenLog.records_session, List.getElem?_map, he]
      rfl
    refine ⟨l.record e, hrecord, rfl, hmethod, rfl, ?_⟩
    rw [Record.decode?_encode, Record.cleared, hmethod, MethodId.ofWord_raw hlow, ← hmethod]
  names := by
    intro r hr m hm hid
    have htraced : r.method ∈ tracedIds l.session.records := mem_tracedIds.mpr (.inl ⟨r, hr, rfl⟩)
    rw [method?_file htraced, hid, entry_key h hsize (Array.mem_toList_iff.mp hm)]

/-! ### Identity -/

/-- **Ids identify methods.**  No more methods are registered than have ids of their own.  They stay
as they were defined, and the table tells them apart by their ids.  It is the table of any machine
into which they are loaded.  Under the key of a machine with this table, a trace that ends on a sink
that takes everything is written as a file that names the methods; if all names fit their lines and
the records can be counted, that file is what is read.  If no id is left, the next one is
synthetic. -/
theorem MethodTable.ids_identify_methods (defs : List MethodDef)
    (hdefs : defs.length ≤ 0x3ffffffb) :
    let methods := (({} : MethodTable).registerAll defs).1
    let table := (({} : MethodTable).registerAll defs).2
    methods.map (·.toMethodDef) = defs ∧
    table.Identifies methods ∧
    (∀ heap settings log ops, ops.flatMap VmOp.loads = defs →
      ((LoggedVm.create heap settings log).after ops).vm.methods = table) ∧
    (∀ (vm : Vm) (ops : List RecorderOp) (l : OpenLog), vm.methods = table →
      vm.profiler.recorder = Recorder.after {} ops → (EventLog.after {} ops).opened = some l →
      l.sink.room = none → l.sink.flushFault = none →
      ∃ summary sink f,
        (vm.profiler.stopTracing vm.key).value = { result := .ok summary, sink := some sink } ∧
        sink.held = l.sink.held ++ f.encode ∧ f.NamesMethods l methods ∧
        ((∀ t ∈ f.threads, t.FitsLine) → (∀ m ∈ f.methods, m.FitsLine) →
          f.records.length < 2 ^ 32 → TraceFile.parse f.encode = .ok f)) ∧
    (defs.length = 0x3ffffffb → ∀ d, (table.register d).1.id = .collection) := by
  intro methods table
  have hnumbered : table.Numbered := numbered_empty.registerAll defs
  have hmethods : table.methods.toList = methods := toList_registerAll_empty defs
  have hcount : table.size = defs.length := size_registerAll_empty defs
  have hsize : table.size < 2 ^ 30 - 4 := by omega
  refine ⟨definitions_registerAll {} defs, hmethods ▸ hnumbered.identifies hsize, ?_, ?_, ?_⟩
  · rintro heap settings log ops rfl
    exact LoggedVm.methods_after _ ops
  · intro vm ops l htable hrecorder hopen hroom hflush
    have hsession : vm.profiler.recorder.session = some l.session := by
      have hafter : Recorder.after {} ops = (EventLog.after {} ops).recorder :=
        EventLog.after_recorder {} ops
      rw [hrecorder, hafter, EventLog.recorder, hopen]
      rfl
    let bytes := (l.session.file vm.key).encode
    have hwritten := Sink.writeOut_lossless hroom hflush bytes
    refine ⟨l.session.summary, { l.sink with held := l.sink.held ++ bytes },
      l.session.file vm.key, ?_, rfl, ?_, ?_⟩
    · rw [Profiler.value_stopTracing, Recorder.value_stop hsession hwritten]
    · rw [← hmethods, ← htable]
      rw [← htable] at hnumbered hsize
      exact Vm.namesMethods_file hnumbered hsize l
    · exact fun hthreads hnames hcounted => Session.parse_file hcounted hthreads hnames
  · intro hfull d
    exact nextId_eq_collection (by omega)

/-- What the recorder of that machine was asked. -/
def Sample.fillEvents : List RecorderOp :=
  [.start (.writer {}) 100 .none, .add ⟨1⟩ ⟨8⟩ .enter, .passBegan ⟨1⟩ .classPreparation,
    .passEnded ⟨1⟩ .classPreparation, .add ⟨1⟩ ⟨8⟩ .exit]

/-- The workload is loaded and its second method called, under a trace: the first record is of that
method, by its name.  And there are methods enough to use up all ids. -/
theorem MethodTable.ids_identify_methods_fill :
    (∃ (sink : Sink) (f : TraceFile) (r : Record),
      (Sample.filledVm.vm.profiler.stopTracing Sample.filledVm.vm.key).value.sink = some sink ∧
      sink.held = f.encode ∧ f.records[0]? = some r ∧ r.method = ⟨8⟩ ∧
      (f.method? r.method).map (·.name) = some "fill") ∧
    ∃ defs : List MethodDef, defs.length = 0x3ffffffb ∧
      ∀ d, ((({} : MethodTable).registerAll defs).2.register d).1.id = .collection := by
  constructor
  · obtain ⟨-, -, htable, htrace, -⟩ := ids_identify_methods Demo.workload.methods (by decide)
    have hvm := htable { limit := 100 } {} {} Sample.tracedFill rfl
    have hrecorder :
        Sample.filledVm.vm.profiler.recorder = Recorder.after {} Sample.fillEvents := by
      decide +kernel
    obtain ⟨summary, sink, f, hstopped, hheld, hnames, -⟩ :=
      htrace Sample.filledVm.vm Sample.fillEvents _ hvm hrecorder rfl rfl rfl
    have hfill : ({ Demo.fill with id := ⟨8⟩ } : Method) ∈
        (({} : MethodTable).registerAll Demo.workload.methods).1 := by decide
    obtain ⟨r, hr, -, hmethod, -⟩ := hnames.records 0 _ rfl _ hfill rfl
    refine ⟨sink, f, r, congrArg Finished.sink hstopped, hheld, hr, hmethod, ?_⟩
    rw [hnames.names r (List.mem_of_getElem? hr) _ hfill hmethod]
    rfl
  · have hlength := List.length_replicate (n := 0x3ffffffb) (a := Demo.fill)
    exact ⟨_, hlength, (ids_identify_methods _ hlength.le).2.2.2.2 hlength⟩

end TracedMachine
