import TracedMachine.Proofs.Text.Fields
import TracedMachine.Proofs.Text.Utf8
import TracedMachine.Trace.Key

/-!
# Proofs — Trace — Key

Reading a key back.  Names stand in a key as they are, so a line feed in a name ends its line and a
tab in a method's name ends its field.  Names without them *fit* (`ThreadEntry.FitsLine`,
`MethodEntry.FitsLine`); a thread's name stands last on its line and may hold tabs.

* `KeyReader.run_keyText`: a key whose names fit is read as it was written, up to the data that
  follows it.
* `KeyReader.run_fits`: whatever is read as a key, the names that come out of it fit.

Both follow the reader line by line; `KeyReader.run_append` says that it takes the bytes of a line
as they come, whatever precedes and follows them.
-/

namespace TracedMachine.Trace

/-- The name of a thread stays on its line. -/
def ThreadEntry.FitsLine (t : ThreadEntry) : Prop := '\n' ∉ t.name.toList

/-- The names of a method stay on their line and in their fields. -/
def MethodEntry.FitsLine (m : MethodEntry) : Prop :=
  ∀ text ∈ [m.className, m.name, m.signature], '\n' ∉ text.toList ∧ '\t' ∉ text.toList

instance (t : ThreadEntry) : Decidable t.FitsLine := inferInstanceAs (Decidable (_ ∉ _))

instance (m : MethodEntry) : Decidable m.FitsLine := inferInstanceAs (Decidable (∀ _ ∈ _, _ ∧ _))

/-! ### One line -/

theorem ThreadEntry.toList_line (t : ThreadEntry) :
    t.line.toList = Nat.toDigits 10 t.id.raw.toNat ++ '\t' :: t.name.toList := by
  have e : t.line = t.id.raw.toNat.repr ++ "\t" ++ t.name := rfl
  rw [e]
  simp [Nat.toList_repr]

theorem MethodEntry.toList_line (m : MethodEntry) :
    m.line.toList = ('0' :: 'x' :: Text.hexDigits 8 m.id.raw.toNat) ++ '\t' ::
      (m.className.toList ++ '\t' :: (m.name.toList ++ '\t' :: m.signature.toList)) := by
  have e : m.line = ("0x" ++ String.ofList (Text.hexDigits 8 m.id.raw.toNat)) ++ "\t" ++
      m.className ++ "\t" ++ m.name ++ "\t" ++ m.signature := rfl
  rw [e]
  simp

theorem ThreadEntry.ofLine?_line (t : ThreadEntry) : ofLine? t.line.toList = some t := by
  have htab : '\t' ∉ Nat.toDigits 10 t.id.raw.toNat := Text.mark_not_mem_toDigits (by decide)
  have hid : t.id.raw.toNat ≤ 255 := Nat.le_of_lt_succ t.id.raw.toNat_lt
  unfold ofLine?
  rw [toList_line, Text.splitOnce?_append _ htab]
  simp [Text.readNat?_toDigits hid]

theorem MethodEntry.ofLine?_line {m : MethodEntry} (hm : m.FitsLine) :
    ofLine? m.line.toList = some m := by
  have hid : '\t' ∉ '0' :: 'x' :: Text.hexDigits 8 m.id.raw.toNat := by
    intro hm
    rcases List.mem_cons.mp hm with h | hm
    · cases h
    · rcases List.mem_cons.mp hm with h | hm
      · cases h
      · exact Text.mark_not_mem_hexDigits (by decide) hm
  have hread : Text.readNat? 16 0xffffffff (Text.hexDigits 8 m.id.raw.toNat) =
      some m.id.raw.toNat :=
    Text.readNat?_hexDigits (by omega) m.id.raw.toNat_lt (Nat.le_of_lt_succ m.id.raw.toNat_lt)
  unfold ofLine?
  rw [toList_line, Text.splitAt_cons _ hid, Text.splitAt_cons _ (hm m.className (by simp)).2,
    Text.splitAt_cons _ (hm m.name (by simp)).2, Text.splitAt_single (hm m.signature (by simp)).2]
  simp [hread]

theorem ThreadEntry.newline_not_mem_line {t : ThreadEntry} (ht : t.FitsLine) :
    '\n' ∉ t.line.toList := by
  rw [toList_line, List.mem_append, List.mem_cons]
  rintro (hm | h | hm)
  · exact Text.mark_not_mem_toDigits (by decide) hm
  · cases h
  · exact ht hm

theorem MethodEntry.newline_not_mem_line {m : MethodEntry} (hm : m.FitsLine) :
    '\n' ∉ m.line.toList := by
  rw [toList_line]
  simp only [List.mem_append, List.mem_cons]
  rintro ((h | h | hd) | h | hc | h | hn | h | hs)
  · cases h
  · cases h
  · exact Text.mark_not_mem_hexDigits (by decide) hd
  · cases h
  · exact (hm m.className (by simp)).1 hc
  · cases h
  · exact (hm m.name (by simp)).1 hn
  · cases h
  · exact (hm m.signature (by simp)).1 hs

/-- The name of a thread on a line without a line feed fits. -/
theorem ThreadEntry.fitsLine_of_ofLine? {line : List Char} {t : ThreadEntry} (hl : '\n' ∉ line)
    (e : ofLine? line = some t) : t.FitsLine := by
  obtain ⟨⟨id, name⟩, hsplit, e⟩ := Option.bind_eq_some_iff.mp e
  obtain ⟨n, -, e⟩ := Option.bind_eq_some_iff.mp e
  cases e
  rw [Text.eq_append_of_splitOnce? hsplit] at hl
  simp only [FitsLine, String.toList_ofList]
  exact fun hm => hl (List.mem_append_right _ (List.mem_cons_of_mem _ hm))

/-- The names of a method on a line without a line feed fit. -/
theorem MethodEntry.fitsLine_of_ofLine? {line : List Char} {m : MethodEntry} (hl : '\n' ∉ line)
    (e : ofLine? line = some m) : m.FitsLine := by
  unfold ofLine? at e
  split at e
  · next id className name signature more hsplit =>
      obtain ⟨n, -, rfl⟩ := Option.map_eq_some_iff.mp e
      have hpiece : ∀ piece ∈ [className, name, signature], '\n' ∉ piece ∧ '\t' ∉ piece := by
        intro piece hp
        have hmem : piece ∈ Text.splitAt '\t' line := by
          rw [hsplit]
          simp only [List.mem_cons, List.not_mem_nil, or_false] at hp ⊢
          tauto
        obtain ⟨htab, hsub⟩ := Text.not_mem_of_mem_splitAt hmem
        exact ⟨fun hm => hl (hsub _ hm), htab⟩
      intro text ht
      simp only [List.mem_cons, List.not_mem_nil, or_false] at ht
      rcases ht with rfl | rfl | rfl
      · rw [String.toList_ofList]; exact hpiece _ (by simp)
      · rw [String.toList_ofList]; exact hpiece _ (by simp)
      · rw [String.toList_ofList]; exact hpiece _ (by simp)
  · cases e

namespace KeyReader

/-! ### The reader, line by line -/

/-- The reader takes bytes up to a line feed without looking at them. -/
theorem run_append (r : KeyReader) (rest : Bytes) : ∀ (line read : Bytes), 10 ∉ line →
    r.run read (line ++ rest) = r.run (line.reverse ++ read) rest
  | [], _, _ => rfl
  | b :: line, read, h => by
      have hb : b ≠ 10 := fun e => h (e ▸ List.mem_cons_self)
      have ih := run_append r rest line (b :: read) fun hm => h (List.mem_cons_of_mem b hm)
      rw [List.cons_append, run, if_neg hb, ih, List.reverse_cons, List.append_assoc,
        List.singleton_append]

/-- The bytes of a line with its line feed. -/
def lineBytes (line : List Char) : Bytes := Text.encode line ++ [10]

/-- At the end of a line the reader has the line's text. -/
theorem run_lineBytes {r : KeyReader} {line : List Char} (hl : '\n' ∉ line) (rest : Bytes) :
    r.run [] (lineBytes line ++ rest) = r.run (Text.encode line).reverse (10 :: rest) ∧
      Text.decode (Text.encode line).reverse.reverse = line := by
  have hbytes : 10 ∉ Text.encode line := fun hm => hl (Text.newline_mem_encode.mp hm)
  rw [lineBytes, List.append_assoc, List.singleton_append, run_append r _ _ _ hbytes,
    List.append_nil, List.reverse_reverse]
  exact ⟨rfl, Text.decode_encode line⟩

theorem run_more {r r' : KeyReader} {line : List Char} (hl : '\n' ∉ line)
    (e : r.line line = .ok (.more r')) (rest : Bytes) :
    r.run [] (lineBytes line ++ rest) = r'.run [] rest := by
  obtain ⟨hrun, htext⟩ := run_lineBytes (r := r) hl rest
  rw [hrun, run, if_pos rfl, htext, e]

theorem run_ended {r r' : KeyReader} {line : List Char} (hl : '\n' ∉ line)
    (e : r.line line = .ok (.ended r')) (hv : r'.sawVersion = true) (rest : Bytes) :
    r.run [] (lineBytes line ++ rest) = .ok (r', rest) := by
  obtain ⟨hrun, htext⟩ := run_lineBytes (r := r) hl rest
  rw [hrun, run, if_pos rfl, htext, e]
  simp [hv]

theorem line_thread {r : KeyReader} (hr : r.current = some .threads) (t : ThreadEntry) :
    r.line t.line.toList = .ok (.more { r with threads := r.threads.push t }) := by
  unfold line
  split
  · next token h =>
      -- a thread's line begins with a digit
      rw [ThreadEntry.toList_line] at h
      cases hd : Nat.toDigits 10 t.id.raw.toNat with
      | nil => exact absurd hd Nat.toDigits_ne_nil
      | cons c cs =>
          rw [hd, List.cons_append] at h
          obtain rfl : c = '*' := (List.cons.inj h).1
          have hmark : '*' ∉ Nat.toDigits 10 t.id.raw.toNat :=
            Text.mark_not_mem_toDigits (by decide)
          exact absurd (hd ▸ List.mem_cons_self) hmark
  · simp only [hr, ThreadEntry.ofLine?_line]

theorem line_method {r : KeyReader} (hr : r.current = some .methods) {m : MethodEntry}
    (hm : m.FitsLine) :
    r.line m.line.toList = .ok (.more { r with methods := r.methods.push m }) := by
  unfold line
  split
  · next token h =>
      rw [MethodEntry.toList_line, List.cons_append] at h
      cases (List.cons.inj h).1
  · simp only [hr, MethodEntry.ofLine?_line hm]

/-- Lines of threads are read one after the other. -/
theorem run_threads (rest : Bytes) : ∀ (ts : List ThreadEntry) (r : KeyReader),
    r.current = some .threads → (∀ t ∈ ts, t.FitsLine) →
      r.run [] (ts.flatMap (fun t => lineBytes t.line.toList) ++ rest) =
        { r with threads := r.threads ++ ts }.run [] rest
  | [], r, _, _ => by simp
  | t :: ts, r, hr, hts => by
      have ht := ThreadEntry.newline_not_mem_line (hts t List.mem_cons_self)
      have ih := run_threads rest ts { r with threads := r.threads.push t } hr
        fun x hx => hts x (List.mem_cons_of_mem t hx)
      rw [List.flatMap_cons, List.append_assoc, run_more ht (line_thread hr t), ih]
      simp

/-- Lines of methods are read one after the other. -/
theorem run_methods (rest : Bytes) : ∀ (ms : List MethodEntry) (r : KeyReader),
    r.current = some .methods → (∀ m ∈ ms, m.FitsLine) →
      r.run [] (ms.flatMap (fun m => lineBytes m.line.toList) ++ rest) =
        { r with methods := r.methods ++ ms }.run [] rest
  | [], r, _, _ => by simp
  | m :: ms, r, hr, hms => by
      have hm := hms m List.mem_cons_self
      have ih := run_methods rest ms { r with methods := r.methods.push m } hr
        fun x hx => hms x (List.mem_cons_of_mem m hx)
      rw [List.flatMap_cons, List.append_assoc,
        run_more (MethodEntry.newline_not_mem_line hm) (line_method hr hm), ih]
      simp

/-! ### A whole key -/

theorem encode_keyText (overflow : UInt32) (threads : List ThreadEntry)
    (methods : List MethodEntry) :
    Text.encode (keyText overflow threads methods) =
      (keyLines overflow threads methods).flatMap fun line => lineBytes line.toList := by
  simp only [keyText, Text.encode, List.flatMap_assoc, List.flatMap_append, lineBytes]
  rfl

/-- The reader of a version section takes in whether events were dropped. -/
theorem line_overflow (r : KeyReader) (hr : r.current = some .version) (b : Bool) :
    r.line (s!"data-file-overflow={b}").toList = .ok (.more { r with overflowed := b }) := by
  obtain ⟨current, sawVersion, overflowed, threads, methods⟩ := r
  cases hr
  cases b <;> rfl

/-- The count of dropped events is not heeded. -/
theorem line_count (r : KeyReader) (hr : r.current = some .version) (n : UInt32) :
    r.line (s!"overflow-count={n}").toList = .ok (.more r) := by
  have e : (s!"overflow-count={n}").toList = 'o' :: ("verflow-count=".toList ++
      Nat.toDigits 10 n.toNat) := by
    have h : s!"overflow-count={n}" = "overflow-count=" ++ n.toNat.repr := rfl
    rw [h, String.toList_append, Nat.toList_repr]
    rfl
  obtain ⟨current, sawVersion, overflowed, threads, methods⟩ := r
  cases hr
  rw [e]
  rfl

theorem newline_not_mem_count (n : UInt32) : '\n' ∉ (s!"overflow-count={n}").toList := by
  have h : s!"overflow-count={n}" = "overflow-count=" ++ n.toNat.repr := rfl
  rw [h, String.toList_append, Nat.toList_repr, List.mem_append]
  rintro (hm | hm)
  · exact absurd hm (by decide)
  · exact Text.mark_not_mem_toDigits (by decide) hm

/-- **A key whose names fit is read as it was written**, whatever follows it. -/
theorem run_keyText (overflow : UInt32) {threads : List ThreadEntry} {methods : List MethodEntry}
    (hts : ∀ t ∈ threads, t.FitsLine) (hms : ∀ m ∈ methods, m.FitsLine) (rest : Bytes) :
    run {} [] (Text.encode (keyText overflow threads methods) ++ rest) =
      .ok ({ current := some .methods, sawVersion := true, overflowed := overflow != 0
             threads := threads.toArray, methods := methods.toArray }, rest) := by
  have hflag : '\n' ∉ (s!"data-file-overflow={overflow != 0}").toList := by
    cases overflow != 0 <;> decide
  rw [encode_keyText, keyLines]
  simp only [List.flatMap_append, List.flatMap_cons, List.flatMap_nil, List.flatMap_map,
    List.append_assoc, List.append_nil]
  rw [run_more (by decide) (show line {} _ = _ from rfl),
    run_more (by decide) (show line _ "1".toList = _ from rfl),
    run_more hflag (line_overflow _ rfl _),
    run_more (newline_not_mem_count overflow) (line_count _ rfl _),
    run_more (by decide) (show line _ "clock=global".toList = _ from rfl),
    run_more (by decide) (show line _ "vm=regvm".toList = _ from rfl),
    run_more (by decide) (show line _ "*threads".toList = _ from rfl),
    run_threads _ _ _ rfl hts,
    run_more (by decide) (show line _ "*methods".toList = _ from rfl),
    run_methods _ _ _ rfl hms,
    run_ended (by decide) (show line _ "*end".toList = _ from rfl) rfl]
  simp

/-! ### What can come out of a key -/

/-- All names that were read fit. -/
structure Fits (r : KeyReader) : Prop where
  threads : ∀ t ∈ r.threads, t.FitsLine
  methods : ∀ m ∈ r.methods, m.FitsLine

/-- A line without a line feed brings in names that fit. -/
theorem line_fits {r r' : KeyReader} {text : List Char} (hr : r.Fits) (hl : '\n' ∉ text)
    (e : r.line text = .ok (.more r') ∨ r.line text = .ok (.ended r')) : r'.Fits := by
  unfold line at e
  split at e
  · -- the name of a section, or the end, brings in no name
    repeat' split at e
    all_goals rcases e with e | e <;> cases e <;> exact ⟨hr.threads, hr.methods⟩
  · split at e
    · rcases e with e | e <;> cases e
    · split at e
      · rcases e with e | e <;> cases e; exact ⟨hr.threads, hr.methods⟩
      · rcases e with e | e <;> cases e; exact hr
    · split at e
      · next t ht =>
          rcases e with e | e <;> cases e
          refine ⟨fun x hx => ?_, hr.methods⟩
          rcases Array.mem_push.mp hx with hx | rfl
          · exact hr.threads x hx
          · exact ThreadEntry.fitsLine_of_ofLine? hl ht
      · rcases e with e | e <;> cases e
    · split at e
      · next m hm =>
          rcases e with e | e <;> cases e
          refine ⟨hr.threads, fun x hx => ?_⟩
          rcases Array.mem_push.mp hx with hx | rfl
          · exact hr.methods x hx
          · exact MethodEntry.fitsLine_of_ofLine? hl hm
      · rcases e with e | e <;> cases e

/-- **Whatever is read as a key, its names fit.** -/
theorem run_fits {r' : KeyReader} {rest : Bytes} : ∀ (bytes read : Bytes) (r : KeyReader), r.Fits →
    10 ∉ read → r.run read bytes = .ok (r', rest) → r'.Fits
  | [], read, r, _, _, e => by
      rw [run] at e
      split at e <;> cases e
  | b :: bytes, read, r, hr, hread, e => by
      have hl : '\n' ∉ Text.decode read.reverse :=
        fun hm => hread (List.mem_reverse.mp (Text.newline_mem_decode hm))
      rw [run] at e
      split at e
      · -- a line is complete
        split at e
        · cases e
        · next r₁ hline =>
            exact run_fits bytes [] r₁ (line_fits hr hl (.inl hline)) List.not_mem_nil e
        · next r₁ hline =>
            split at e
            · cases e; exact line_fits hr hl (.inr hline)
            · cases e
      · next hb =>
          refine run_fits bytes (b :: read) r hr (fun hm => ?_) e
          rcases List.mem_cons.mp hm with h | hm
          · exact hb h.symm
          · exact hread hm

end KeyReader

end TracedMachine.Trace
