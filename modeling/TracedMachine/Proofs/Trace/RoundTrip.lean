import TracedMachine.Proofs.MethodId
import TracedMachine.Proofs.Trace.Key
import TracedMachine.Sink
import TracedMachine.Trace.File

/-!
# Proofs — Trace — RoundTrip

Which trace files are read as they were written.  A file says some things twice, and some of what
it holds has no written form of its own: the number of records is in its head, whether events were
dropped follows from the count of dropped events, the two low bits of a method's id give way to
the action, and names stand in the key as they are.  `TraceFile.Faithful` lists what a file must be
like for none of this to matter.

**Round trip** (`parse_written_iff`).  A file that is written to a sink with room for it and read
from there is the file again if and only if it is faithful.

**Rewriting** (`rewriting_is_stable`).  Far more can be read than is ever written.  Whatever it was
read from, a file that is written again is read as it was, and from then on its bytes stay the same.

From left to right the argument is about any bytes: what can be read has the current version, as
many records as its head says, ids with their low bits clear and names that fit
(`faithful_of_parse`).  That whether events were dropped agrees with their count is then read off
the key as it was written.  From right to left the key, the head and the records are read back one
after the other (`KeyReader.run_keyText`, `Header.parse_encode`, `decodeRecords_encode`), each with
whatever follows it.  The two halves together are rewriting.
-/

namespace TracedMachine

/-! ### Numbers in bytes -/

theorem ofLittleEndian_littleEndian (width v : Nat) :
    ofLittleEndian (littleEndian width v) = v % 256 ^ width := by
  induction width generalizing v with
  | zero => simp [littleEndian, ofLittleEndian, Nat.mod_one]
  | succ width ih =>
      rw [littleEndian, ofLittleEndian, ih, Text.toNat_toUInt8 (by omega), Nat.pow_succ,
        Nat.mul_comm (256 ^ width), Nat.mod_mul]

/-- The number at the front of bytes. -/
theorem wordAt_front (width v : Nat) (rest : Bytes) :
    wordAt (littleEndian width v ++ rest) 0 width = v % 256 ^ width := by
  rw [wordAt, List.drop_zero, List.take_left' (length_littleEndian width v),
    ofLittleEndian_littleEndian]

/-- A number that begins after the front of bytes. -/
theorem wordAt_skip {front rest : Bytes} {offset : Nat} (h : front.length ≤ offset) (width : Nat) :
    wordAt (front ++ rest) offset width = wordAt rest (offset - front.length) width := by
  rw [wordAt, wordAt, List.drop_append, List.drop_eq_nil_of_le h, List.nil_append]

namespace Trace

/-! ### The head -/

theorem Header.length_encode (h : Header) : h.encode.length = headerSize := by
  simp [Header.encode, headerSize, headerUsed]

/-- A head of the current version is read as it was written. -/
theorem Header.parse_encode {h : Header} (hv : h.version = currentVersion) (rest : Bytes) :
    Header.parse (h.encode ++ rest) = .ok (h, headerSize) := by
  have hlen : headerSize ≤ (h.encode ++ rest).length := by
    rw [List.length_append, h.length_encode]
    omega
  have hmagic : (wordAt (h.encode ++ rest) 0 4).toUInt32 = magic := by
    simp only [Header.encode, List.append_assoc, wordAt_front]
    rfl
  have hversion : (wordAt (h.encode ++ rest) 4 2).toUInt16 = h.version := by
    simp [Header.encode, wordAt_skip, wordAt_front]
  have hlength : wordAt (h.encode ++ rest) 6 2 = headerSize := by
    simp [Header.encode, wordAt_skip, wordAt_front, headerSize]
  have htime : (wordAt (h.encode ++ rest) 8 8).toUInt64 = h.startTime := by
    simp [Header.encode, wordAt_skip, wordAt_front]
  have hoverflow : (wordAt (h.encode ++ rest) 16 4).toUInt32 = h.overflow := by
    simp [Header.encode, wordAt_skip, wordAt_front]
  have hentries : (wordAt (h.encode ++ rest) 20 4).toUInt32 = h.entries := by
    simp [Header.encode, wordAt_skip, wordAt_front]
  have hfull : ¬ (h.encode ++ rest).length < 8 := by
    simp only [headerSize] at hlen
    omega
  have hlong : ¬ (headerSize < headerUsed ∨ (h.encode ++ rest).length < headerSize) := by
    simp only [headerSize, headerUsed] at hlen ⊢
    omega
  unfold Header.parse
  simp only [hmagic, hversion, hlength, htime, hoverflow, hentries, hv, ne_eq, not_true, if_false,
    hfull, hlong]
  cases h
  cases hv
  rfl

theorem Header.version_of_parse {bytes : Bytes} {h : Header} {length : Nat}
    (e : Header.parse bytes = .ok (h, length)) : h.version = currentVersion := by
  unfold Header.parse at e
  simp only at e
  split at e
  · cases e
  · split at e
    · cases e
    · split at e
      · cases e
      · next hv =>
          split at e
          · cases e
          · cases e
            exact not_not.mp hv

/-! ### Records -/

/-- A record as it can be read: without the low bits of its method's id. -/
def Record.cleared (r : Record) : Record := { r with method := .ofWord r.method.raw }

theorem Record.length_encode (r : Record) : r.encode.length = recordSize := by
  simp [Record.encode, recordSize]

/-- A record is read as it was written, but for the low bits. -/
theorem Record.decode?_encode (r : Record) : Record.decode? r.encode = some r.cleared := by
  have hthread : (wordAt r.encode 0 1).toUInt8 = r.thread.raw := by
    simp [Record.encode, wordAt, ofLittleEndian]
  have hword : (wordAt r.encode 1 4).toUInt32 = r.method.word r.action := by
    have e : wordAt r.encode 1 4 = wordAt (littleEndian 4 (r.method.word r.action).toNat ++
      littleEndian 4 r.elapsed.toNat) 0 4 := rfl
    rw [e, wordAt_front]
    simp
  have helapsed : (wordAt r.encode 5 4).toUInt32 = r.elapsed := by
    have e : wordAt r.encode 5 4 = wordAt (littleEndian 4 (r.method.word r.action).toNat ++
      littleEndian 4 r.elapsed.toNat) 4 4 := rfl
    rw [e, wordAt_skip (by simp), length_littleEndian]
    have e' := wordAt_front 4 r.elapsed.toNat []
    rw [List.append_nil] at e'
    rw [e']
    simp
  simp only [Record.decode?, hthread, hword, helapsed, Action.ofBits?_word, Option.map_some,
    MethodId.ofWord_word]
  rfl

end Trace

open Trace

namespace TraceFile

theorem length_encodeRecords (rs : List Record) :
    (rs.flatMap Record.encode).length = rs.length * recordSize := by
  induction rs with
  | nil => rfl
  | cons r rs ih =>
      rw [List.flatMap_cons, List.length_append, r.length_encode, ih, List.length_cons,
        Nat.succ_mul, Nat.add_comm]

theorem decodeRecords_encode (rest : Bytes) : ∀ (rs : List Record) (index : Nat),
    decodeRecords index rs.length (rs.flatMap Record.encode ++ rest) = .ok (rs.map Record.cleared)
  | [], _ => rfl
  | r :: rs, index => by
      rw [List.length_cons, decodeRecords, List.flatMap_cons, List.append_assoc,
        List.take_left' r.length_encode, List.drop_left' r.length_encode, r.decode?_encode,
        decodeRecords_encode rest rs (index + 1)]
      rfl

/-- Records that are read are as many as were asked for, and their ids have no low bits. -/
theorem decodeRecords_ok : ∀ {index count : Nat} {bytes : Bytes} {rs : List Record},
    decodeRecords index count bytes = .ok rs →
      rs.length = count ∧ ∀ r ∈ rs, r.method.raw % 4 = 0
  | _, 0, _, _, e => by
      cases e
      exact ⟨rfl, fun r hr => by cases hr⟩
  | index, count + 1, bytes, rs, e => by
      rw [decodeRecords] at e
      split at e
      · cases e
      · next r hr =>
          cases htail : decodeRecords (index + 1) count (bytes.drop recordSize) with
          | error err => rw [htail] at e; cases e
          | ok tail =>
              rw [htail] at e
              cases e
              obtain ⟨hlen, hclear⟩ := decodeRecords_ok htail
              refine ⟨by rw [List.length_cons, hlen], fun x hx => ?_⟩
              rcases List.mem_cons.mp hx with rfl | hx
              · obtain ⟨a, -, rfl⟩ := Option.map_eq_some_iff.mp hr
                exact MethodId.low_bits_ofWord _
              · exact hclear x hx

/-! ### Whole files -/

/-- What is read of a file, part by part. -/
theorem parse_eq_ok_iff {bytes : Bytes} {f : TraceFile} :
    parse bytes = .ok f ↔ ∃ key data length, KeyReader.run {} [] bytes = .ok (key, data) ∧
      Header.parse data = .ok (f.header, length) ∧
      length + f.header.entries.toNat * recordSize ≤ data.length ∧
      decodeRecords 0 f.header.entries.toNat (data.drop length) = .ok f.records ∧
      f.overflowed = key.overflowed ∧ f.threads = key.threads.toList ∧
      f.methods = key.methods.toList := by
  unfold parse
  constructor
  · intro e
    cases hkey : KeyReader.run {} [] bytes with
    | error err => rw [hkey] at e; cases e
    | ok found =>
        obtain ⟨key, data⟩ := found
        rw [hkey] at e
        cases hhead : Header.parse data with
        | error err => simp [bind, Except.bind, hhead] at e
        | ok found =>
            obtain ⟨header, length⟩ := found
            simp only [bind, Except.bind, hhead] at e
            split at e
            · cases e
            · next hshort =>
                cases hrecords : decodeRecords 0 header.entries.toNat (data.drop length) with
                | error err => simp [hrecords] at e
                | ok records =>
                    simp only [hrecords, pure, Except.pure] at e
                    cases e
                    have hlong := Nat.le_of_not_lt hshort
                    exact ⟨key, data, length, rfl, hhead, hlong, hrecords, rfl, rfl, rfl⟩
  · rintro ⟨key, data, length, hkey, hhead, hlong, hrecords, ho, ht, hm⟩
    have hshort : ¬ data.length < length + f.header.entries.toNat * recordSize := by omega
    simp only [bind, Except.bind, hkey, hhead, hshort, if_false, hrecords, pure, Except.pure]
    rw [← ho, ← ht, ← hm]

/-- What a file must be like to be read as it is written. -/
structure Faithful (f : TraceFile) : Prop where
  version : f.header.version = 1
  entries : f.header.entries.toNat = f.records.length
  overflowed : f.overflowed = (f.header.overflow != 0)
  /-- The two low bits of the ids are clear. -/
  low_bits : ∀ r ∈ f.records, r.method.raw % 4 = 0
  /-- No name of a thread has a line feed. -/
  threads : ∀ t ∈ f.threads, t.FitsLine
  /-- No name of a method has a line feed or a tab. -/
  methods : ∀ m ∈ f.methods, m.FitsLine

/-- **What can be read** is faithful, but that the key may say otherwise of dropped events than the
head. -/
theorem faithful_of_parse {bytes : Bytes} {f : TraceFile} (e : parse bytes = .ok f) :
    { f with overflowed := f.header.overflow != 0 }.Faithful := by
  obtain ⟨key, data, length, hkey, hhead, -, hrecords, -, ht, hm⟩ := parse_eq_ok_iff.mp e
  obtain ⟨hcount, hclear⟩ := decodeRecords_ok hrecords
  have hfits : key.Fits := by
    refine KeyReader.run_fits bytes [] {} ⟨?_, ?_⟩ List.not_mem_nil hkey
    · exact fun t h => absurd h (Array.not_mem_empty t)
    · exact fun m h => absurd h (Array.not_mem_empty m)
  refine ⟨Header.version_of_parse hhead, hcount.symm, rfl, hclear, ?_, ?_⟩
  · intro t h
    rw [ht, Array.mem_toList_iff] at h
    exact hfits.threads t h
  · intro m h
    rw [hm, Array.mem_toList_iff] at h
    exact hfits.methods m h

/-- A file whose names fit and whose counts are right is read as it was written, but for what the
key says of dropped events and for the low bits of ids. -/
theorem parse_encode {f : TraceFile} (hv : f.header.version = 1)
    (hn : f.header.entries.toNat = f.records.length) (hts : ∀ t ∈ f.threads, t.FitsLine)
    (hms : ∀ m ∈ f.methods, m.FitsLine) :
    parse f.encode = .ok { f with
      overflowed := f.header.overflow != 0
      records := f.records.map Record.cleared } := by
  have hkey := KeyReader.run_keyText f.header.overflow hts hms
    (f.header.encode ++ f.records.flatMap Record.encode)
  rw [← List.append_assoc] at hkey
  refine parse_eq_ok_iff.mpr ⟨_, _, headerSize, hkey, Header.parse_encode hv _, ?_, ?_, rfl, ?_, ?_⟩
  · rw [List.length_append, f.header.length_encode, length_encodeRecords, hn]
  · have hrecords := decodeRecords_encode [] f.records 0
    rw [List.append_nil] at hrecords
    rw [List.drop_left' f.header.length_encode, hn, hrecords]
  · exact List.toList_toArray.symm
  · exact List.toList_toArray.symm

/-- Ids without low bits have none to clear. -/
theorem map_cleared {rs : List Record} (h : ∀ r ∈ rs, r.method.raw % 4 = 0) :
    rs.map Record.cleared = rs := by
  have hclear : ∀ r ∈ rs, r.cleared = id r := by
    intro r hr
    rw [Record.cleared, MethodId.ofWord_raw (h r hr), id]
  rw [List.map_congr_left hclear, List.map_id]

/-- **Round trip.**  A sink with room for everything takes a file, and the file is read from it
again if and only if it is faithful. -/
theorem parse_written_iff (f : TraceFile) (whenFull : OutputFault)
    (flushFault : Option OutputFault) :
    ∃ sink, Sink.write { whenFull, flushFault } f.encode = (.ok (), sink) ∧
      (parse sink.held = .ok f ↔ f.Faithful) := by
  refine ⟨_, rfl, ?_⟩
  simp only [List.nil_append]
  constructor
  · intro e
    have hread := faithful_of_parse e
    have hagain := parse_encode hread.version hread.entries hread.threads hread.methods
    -- the written bytes do not depend on what the key is to say of dropped events
    have hover : f.overflowed = (f.header.overflow != 0) := by
      have h := e.symm.trans hagain
      exact congrArg TraceFile.overflowed (Except.ok.inj h)
    exact ⟨hread.version, hread.entries, hover, hread.low_bits, hread.threads, hread.methods⟩
  · intro hf
    rw [parse_encode hf.version hf.entries hf.threads hf.methods, map_cleared hf.low_bits,
      ← hf.overflowed]

/-! ### Rewriting -/

/-- **Rewriting is stable.**  Whatever bytes a file was read from, it is written to a sink with room
for it and read from there again as it was, but that the key now says of dropped events what the
head says.  Writing the file once more gives the same bytes. -/
theorem rewriting_is_stable {bytes : Bytes} {f : TraceFile} (e : parse bytes = .ok f)
    (whenFull : OutputFault) (flushFault : Option OutputFault) :
    let again : TraceFile := { f with overflowed := f.header.overflow != 0 }
    ∃ sink, Sink.write { whenFull, flushFault } f.encode = (.ok (), sink) ∧
      parse sink.held = .ok again ∧
      Sink.write { whenFull, flushFault } again.encode = (.ok (), sink) := by
  intro again
  have hread : again.Faithful := faithful_of_parse e
  have hagain : parse again.encode = .ok again := by
    rw [parse_encode hread.version hread.entries hread.threads hread.methods,
      map_cleared hread.low_bits]
  -- the written bytes do not depend on what the key said of dropped events
  have hsame : f.encode = again.encode := rfl
  rw [hsame]
  exact ⟨_, rfl, hagain, rfl⟩

/-- A file that `encode` does not write: the key says that events were dropped and the head says
that none were, there is a byte that is no character, a number with a plus sign and a short one, a
field too many, a head of 24 bytes and a byte behind the record. -/
theorem rewriting_is_stable_unwritten :
    let bytes := Text.encode "*version\ndata-file-overflow=true\n*threads\n+07\tx".toList ++ 0xff ::
      Text.encode "\n*methods\n0x4\tA\tf\t()V\tmore\n*end\n".toList ++
      Text.encode "SLOW".toList ++ [1, 0, 24, 0] ++ List.replicate 12 0 ++ [1, 0, 0, 0] ++
      [7, 5, 0, 0, 0, 0, 0, 0, 0] ++ [42]
    let f : TraceFile :=
      { overflowed := true
        threads := [⟨⟨7⟩, String.ofList ['x', Text.replacement]⟩]
        methods := [⟨⟨4⟩, "A", "f", "()V"⟩]
        header := { version := 1, startTime := 0, overflow := 0, entries := 1 }
        records := [⟨⟨7⟩, ⟨4⟩, .exit, 0⟩] }
    parse bytes = .ok f ∧ ∃ sink, Sink.write {} f.encode = (.ok (), sink) ∧
      parse sink.held = .ok { f with overflowed := false } ∧
      Sink.write {} { f with overflowed := false }.encode = (.ok (), sink) := by
  intro bytes f
  have e : parse bytes = .ok f := by rfl
  exact ⟨e, rewriting_is_stable e .full none⟩

end TraceFile

end TracedMachine
