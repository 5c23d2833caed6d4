import TracedMachine.Proofs.Trace.RoundTrip

/-!
# Proofs — Trace — Delimited

A trace file says itself where it ends.  Its key ends with a line, its head says how long it is, and
how many records follow is in the head; so a reader knows after which byte it has all of a file, and
does not look at any byte behind it.

**Truncation** (`self_delimiting`).  Whatever can be read as a file begins with bytes that alone are
that file: fewer of them are refused, and what follows them does not matter.

The bytes that can be read need not have been written by `TraceFile.encode`.  The key is followed
line by line (`KeyReader.run_takes`).  The head and the records are local: they are read alike from
any bytes that agree on their length (`Header.parse_of_take`, `decodeRecords_take`), and so a cut
behind the key leaves too few bytes for the counts that the head still gives.
-/

namespace TracedMachine

/-- A number that lies in front of a cut is the same before and after it. -/
theorem wordAt_take {offset width n : Nat} (h : offset + width ≤ n) (bytes : Bytes) :
    wordAt (bytes.take n) offset width = wordAt bytes offset width := by
  have hmin : min width (n - offset) = width := by omega
  rw [wordAt, wordAt, List.drop_take, List.take_take, hmin]

namespace Trace

/-! ### The key -/

/-- **A key ends with its last line.**  The bytes of a key are read whatever follows them, and no
smaller number of them is a key. -/
theorem KeyReader.run_takes {r' : KeyReader} {rest : Bytes} :
    ∀ (bytes read : Bytes) (r : KeyReader),
    r.run read bytes = .ok (r', rest) → ∃ front, bytes = front ++ rest ∧
      (∀ more, r.run read (front ++ more) = .ok (r', more)) ∧
      ∀ n < front.length, ∃ e, r.run read (front.take n) = .error e
  | [], read, r, e => by
      rw [run] at e
      split at e <;> cases e
  | b :: bytes, read, r, e => by
      -- without a byte there is no end of a key
      have hnone : ∃ err, r.run read [] = .error err := by
        rw [run]
        split <;> exact ⟨_, rfl⟩
      rw [run] at e
      split at e
      · next hb =>
        split at e
        · cases e
        · next next hline =>
          obtain ⟨front, rfl, hmore, hshort⟩ := run_takes bytes [] next e
          refine ⟨b :: front, rfl, fun more => ?_, fun n hn => ?_⟩
          · rw [List.cons_append, run, if_pos hb, hline]
            exact hmore more
          · cases n with
            | zero => exact hnone
            | succ n =>
                rw [List.take_succ_cons, run, if_pos hb, hline]
                exact hshort n (Nat.lt_of_succ_lt_succ hn)
        · next last hline =>
          split at e
          · next hversion =>
            cases e
            refine ⟨[b], rfl, fun more => ?_, fun n hn => ?_⟩
            · rw [List.singleton_append, run, if_pos hb, hline]
              exact if_pos hversion
            · obtain rfl : n = 0 := Nat.lt_one_iff.mp hn
              exact hnone
          · cases e
      · next hb =>
        obtain ⟨front, rfl, hmore, hshort⟩ := run_takes bytes (b :: read) r e
        refine ⟨b :: front, rfl, fun more => ?_, fun n hn => ?_⟩
        · rw [List.cons_append, run, if_neg hb]
          exact hmore more
        · cases n with
          | zero => exact hnone
          | succ n =>
              rw [List.take_succ_cons, run, if_neg hb]
              exact hshort n (Nat.lt_of_succ_lt_succ hn)

/-! ### The head -/

/-- What it takes for data to begin with a head. -/
theorem Header.parse_eq_ok_iff {bytes : Bytes} {h : Header} {length : Nat} :
    Header.parse bytes = .ok (h, length) ↔
      headerUsed ≤ length ∧ length ≤ bytes.length ∧ (wordAt bytes 0 4).toUInt32 = magic ∧
      (wordAt bytes 4 2).toUInt16 = currentVersion ∧ wordAt bytes 6 2 = length ∧
      h = { version := currentVersion
            startTime := (wordAt bytes 8 8).toUInt64
            overflow := (wordAt bytes 16 4).toUInt32
            entries := (wordAt bytes 20 4).toUInt32 } := by
  unfold Header.parse
  dsimp only
  constructor
  · intro e
    split at e
    · cases e
    · split at e
      · cases e
      · next hmagic =>
        split at e
        · cases e
        · next hversion =>
          split at e
          · cases e
          · next hlength =>
            cases e
            rw [not_or, Nat.not_lt, Nat.not_lt] at hlength
            rw [not_not] at hmagic hversion
            exact ⟨hlength.1, hlength.2, hmagic, hversion, rfl, by rw [hversion]⟩
  · rintro ⟨hused, hlong, hmagic, hversion, rfl, rfl⟩
    have hfull : ¬ bytes.length < 8 := by
      simp only [headerUsed] at hused
      omega
    have hlength : ¬ (wordAt bytes 6 2 < headerUsed ∨ bytes.length < wordAt bytes 6 2) := by
      omega
    rw [if_neg hfull, if_neg (not_not.mpr hmagic), if_neg (not_not.mpr hversion), if_neg hlength,
      hversion]

/-- **A head is as long as it says**: bytes that agree with it on that length have the same head. -/
theorem Header.parse_of_take {bytes other : Bytes} {h : Header} {length : Nat}
    (e : Header.parse bytes = .ok (h, length)) (hother : length ≤ other.length)
    (htake : other.take length = bytes.take length) : Header.parse other = .ok (h, length) := by
  obtain ⟨hused, hlong, hmagic, hversion, hlength, rfl⟩ := parse_eq_ok_iff.mp e
  have hword : ∀ offset width, offset + width ≤ headerUsed →
      wordAt other offset width = wordAt bytes offset width := by
    intro offset width hle
    have hle : offset + width ≤ length := Nat.le_trans hle hused
    rw [← wordAt_take hle other, htake, wordAt_take hle]
  simp only [headerUsed] at hword
  refine parse_eq_ok_iff.mpr ⟨hused, hother, ?_, ?_, ?_, ?_⟩
  · rwa [hword 0 4 (by omega)]
  · rwa [hword 4 2 (by omega)]
  · rwa [hword 6 2 (by omega)]
  · rw [hword 8 8 (by omega), hword 16 4 (by omega), hword 20 4 (by omega)]

end Trace

open Trace

namespace TraceFile

/-! ### The records -/

/-- Records are read from their own bytes only. -/
theorem decodeRecords_take : ∀ {index count n : Nat} (bytes : Bytes), count * recordSize ≤ n →
    decodeRecords index count (bytes.take n) = decodeRecords index count bytes
  | _, 0, _, _, _ => rfl
  | index, count + 1, n, bytes, h => by
      have hfirst : recordSize ≤ n := Nat.le_trans (Nat.le_mul_of_pos_left _ (by omega)) h
      have hrest : count * recordSize ≤ n - recordSize := by
        rw [Nat.succ_mul] at h
        omega
      rw [decodeRecords, decodeRecords, List.take_take, Nat.min_eq_left hfirst, List.drop_take,
        decodeRecords_take _ hrest]

/-! ### Whole files -/

/-- The bytes of a head and the records that it counts, as far as they are there. -/
theorem data_of_take {data other : Bytes} {h : Header} {length : Nat}
    (e : Header.parse data = .ok (h, length))
    (hother : length + h.entries.toNat * recordSize ≤ other.length)
    (htake : other.take (length + h.entries.toNat * recordSize) =
      data.take (length + h.entries.toNat * recordSize)) :
    Header.parse other = .ok (h, length) ∧
      decodeRecords 0 h.entries.toNat (other.drop length) =
        decodeRecords 0 h.entries.toNat (data.drop length) := by
  constructor
  · have hhead := congrArg (List.take length) htake
    rw [List.take_take, List.take_take, Nat.min_eq_left (Nat.le_add_right _ _)] at hhead
    exact Header.parse_of_take e (Nat.le_of_add_right_le hother) hhead
  · have hrecords := congrArg (List.drop length) htake
    rw [List.drop_take, List.drop_take, Nat.add_sub_cancel_left] at hrecords
    rw [← decodeRecords_take (other.drop length) (Nat.le_refl _), hrecords,
      decodeRecords_take _ (Nat.le_refl _)]

/-- **A file ends with its last record.**  The bytes of a file are read whatever follows them, and
no smaller number of them is a file. -/
theorem parse_takes {bytes : Bytes} {f : TraceFile} (e : parse bytes = .ok f) :
    ∃ front rest, bytes = front ++ rest ∧ (∀ more, parse (front ++ more) = .ok f) ∧
      ∀ n < front.length, ∃ err, parse (front.take n) = .error err := by
  obtain ⟨key, data, length, hkey, hhead, hlong, hrecords, ho, ht, hm⟩ := parse_eq_ok_iff.mp e
  obtain ⟨front, rfl, hmore, hshort⟩ := KeyReader.run_takes _ _ _ hkey
  generalize hneeded : length + f.header.entries.toNat * recordSize = needed at hlong
  have hsize : (data.take needed).length = needed := List.length_take_of_le hlong
  refine ⟨front ++ data.take needed, data.drop needed, ?_, fun more => ?_, fun n hn => ?_⟩
  · rw [List.append_assoc, List.take_append_drop]
  · have hother : needed ≤ (data.take needed ++ more).length := by
      rw [List.length_append, hsize]
      omega
    have htake : (data.take needed ++ more).take needed = data.take needed :=
      List.take_left' hsize
    obtain ⟨hhead', hrecords'⟩ : Header.parse (data.take needed ++ more) = _ ∧ _ :=
      data_of_take hhead (by rwa [hneeded]) (by rwa [hneeded])
    refine parse_eq_ok_iff.mpr
      ⟨key, data.take needed ++ more, length, ?_, hhead', ?_, ?_, ho, ht, hm⟩
    · rw [List.append_assoc]
      exact hmore _
    · rwa [hneeded]
    · rw [hrecords', hrecords]
  · cases hcut : parse ((front ++ data.take needed).take n) with
    | error err => exact ⟨err, rfl⟩
    | ok g =>
        exfalso
        obtain ⟨key', data', length', hkey', hhead', hlong', -⟩ := parse_eq_ok_iff.mp hcut
        by_cases hn' : n < front.length
        · -- the cut is in the key
          obtain ⟨err, herr⟩ := hshort n hn'
          rw [List.take_append_of_le_length (Nat.le_of_lt hn'), herr] at hkey'
          cases hkey'
        · -- the cut is behind the key, and the head that is left still counts the records
          rw [List.take_append, List.take_of_length_le (Nat.le_of_not_lt hn'), hmore] at hkey'
          cases hkey'
          have hleft : n - front.length < needed := by
            rw [List.length_append, hsize] at hn
            omega
          rw [List.take_take, Nat.min_eq_left (Nat.le_of_lt hleft)] at hhead' hlong'
          rw [List.length_take_of_le (by omega)] at hlong'
          have hfront : data.take length' = (data.take (n - front.length)).take length' := by
            rw [List.take_take, Nat.min_eq_left (by omega)]
          have hwhole := Header.parse_of_take hhead' (by omega) hfront
          obtain ⟨hsame, rfl⟩ := Prod.mk.inj (Except.ok.inj (hhead.symm.trans hwhole))
          rw [← hsame, hneeded] at hlong'
          omega

/-- **Truncation is detected.**  What can be read as a file has a length such that any fewer of its
bytes are refused, while that many of them or more are the same file, whatever follows. -/
theorem self_delimiting {bytes : Bytes} {f : TraceFile} (e : parse bytes = .ok f) :
    ∃ n ≤ bytes.length, (∀ k < n, ∃ err, parse (bytes.take k) = .error err) ∧
      (∀ k ≥ n, parse (bytes.take k) = .ok f) ∧ ∀ more, parse (bytes ++ more) = .ok f := by
  obtain ⟨front, rest, rfl, hmore, hshort⟩ := parse_takes e
  refine ⟨front.length, ?_, fun k hk => ?_, fun k hk => ?_, fun more => ?_⟩
  · rw [List.length_append]
    omega
  · rw [List.take_append_of_le_length (Nat.le_of_lt hk)]
    exact hshort k hk
  · rw [List.take_append, List.take_of_length_le hk]
    exact hmore _
  · rw [List.append_assoc]
    exact hmore _

/-- Bytes that `encode` does not write: sections out of order and one of them twice, a number with a
plus sign, a byte that is no character, a head of 26 bytes, and a byte behind the record. -/
theorem self_delimiting_unwritten :
    let bytes := Text.encode "*methods\n*version\n*threads\n+7\tx".toList ++ 0xff ::
      Text.encode "\n*version\n*end\n".toList ++ Text.encode "SLOW".toList ++ [1, 0, 26, 0] ++
      List.replicate 12 0 ++ [1, 0, 0, 0, 9, 9] ++ [7, 5, 0, 0, 0, 0, 0, 0, 0] ++ [42]
    let f : TraceFile :=
      { overflowed := false
        threads := [⟨⟨7⟩, String.ofList ['x', Text.replacement]⟩]
        methods := []
        header := { version := 1, startTime := 0, overflow := 0, entries := 1 }
        records := [⟨⟨7⟩, ⟨4⟩, .exit, 0⟩] }
    parse bytes = .ok f ∧ bytes.length = 83 ∧
      ∃ n ≤ bytes.length, (∀ k < n, ∃ err, parse (bytes.take k) = .error err) ∧
        (∀ k ≥ n, parse (bytes.take k) = .ok f) ∧ ∀ more, parse (bytes ++ more) = .ok f := by
  intro bytes f
  have e : parse bytes = .ok f := by rfl
  exact ⟨e, rfl, self_delimiting e⟩

end TraceFile

end TracedMachine
