import TracedMachine.Bytes
import TracedMachine.Descriptor
import TracedMachine.Proofs.Text.Fields
import TracedMachine.Proofs.Text.Utf8

/-!
# Proofs — Descriptor

Which texts are descriptors.  The grammar is one of bytes (`ElementType.Derives`): a letter, or `L`
and parts with slashes between them and a semicolon, or a bracket and a descriptor.  The reader
works on characters, takes the last one off to find the semicolon, and cuts what is left at the
slashes.

**Grammar** (`ElementType.descriptors_derive`).  A text is read as an element type if and only if
its bytes derive from the grammar.  One letter is read as its primitive type, and everything else
as a reference.

All characters that the grammar names have one byte, and no byte of another character is the same
(`Text.ascii_mem_encode`).  So bytes can be cut at such a character where the text can
(`Text.eq_append_of_encode`), which is what takes a derivation from the bytes to the text.
-/

namespace TracedMachine.ElementType

/-! ### The grammar -/

/-- A part of a class name: one byte or more, none of them a slash, a semicolon, a bracket or a
dot. -/
def NamePart (n : Bytes) : Prop :=
  n ≠ [] ∧ ∀ c ∈ ['/', ';', '[', '.'], c.toUInt8 ∉ n

/-- One part or more, with a slash between two. -/
inductive ClassName : Bytes → Prop where
  | part {n : Bytes} (h : NamePart n) : ClassName n
  | slash {n rest : Bytes} (h : NamePart n) (hrest : ClassName rest) :
      ClassName (n ++ '/'.toUInt8 :: rest)

/-- The letters of the primitive types. -/
def primitives : List (Char × ElementType) :=
  [('Z', boolean), ('B', byte), ('C', char), ('S', short), ('I', int), ('F', float), ('J', long),
    ('D', double)]

/-- **The grammar of descriptors.** -/
inductive Derives : Bytes → Prop where
  | primitive {letter : Char} {t : ElementType} (h : (letter, t) ∈ primitives) :
      Derives [letter.toUInt8]
  | cls {name : Bytes} (h : ClassName name) : Derives ('L'.toUInt8 :: (name ++ [';'.toUInt8]))
  | array {d : Bytes} (h : Derives d) : Derives ('['.toUInt8 :: d)

/-! ### Class names -/

theorem isNamePart_iff {part : List Char} :
    isNamePart part = true ↔ part ≠ [] ∧ ∀ c ∈ [';', '[', '.'], c ∉ part := by
  simp only [isNamePart, Bool.and_eq_true, Bool.not_eq_true', List.isEmpty_eq_false_iff,
    List.all_eq_true, decide_eq_true_eq, ne_eq, List.forall_mem_cons, List.not_mem_nil,
    false_implies, implies_true, and_true]
  constructor
  · rintro ⟨hne, hall⟩
    exact ⟨hne, fun h => (hall _ h).1.1 rfl, fun h => (hall _ h).1.2 rfl, fun h => (hall _ h).2 rfl⟩
  · rintro ⟨hne, hsemicolon, hbracket, hdot⟩
    refine ⟨hne, fun c hc => ⟨⟨?_, ?_⟩, ?_⟩⟩
    · rintro rfl
      exact hsemicolon hc
    · rintro rfl
      exact hbracket hc
    · rintro rfl
      exact hdot hc

theorem namePart_encode_iff {part : List Char} :
    NamePart (Text.encode part) ↔ '/' ∉ part ∧ isNamePart part = true := by
  have hshort : ∀ c ∈ ['/', ';', '[', '.'], c.toNat < 128 := by simp
  have hmem : (∀ c ∈ ['/', ';', '[', '.'], c.toUInt8 ∉ Text.encode part) ↔
      ∀ c ∈ ['/', ';', '[', '.'], c ∉ part :=
    forall₂_congr fun c hc => not_congr (Text.ascii_mem_encode (hshort c hc))
  rw [NamePart, hmem, ne_eq, Text.encode_eq_nil_iff, isNamePart_iff, List.forall_mem_cons]
  exact and_left_comm

/-- The parts of a class name are what is cut at the slashes. -/
theorem className_of_isClassName {name : List Char} (h : isClassName name = true) :
    ClassName (Text.encode name) := by
  induction hn : name.length using Nat.strongRecOn generalizing name with
  | ind n ih =>
      by_cases hslash : '/' ∈ name
      · obtain ⟨part, rest, rfl, hpart⟩ := List.eq_append_cons_of_mem hslash
        rw [isClassName, Text.splitAt_cons rest hpart, List.all_cons, Bool.and_eq_true] at h
        have hlength : rest.length < n := by
          rw [← hn, List.length_append, List.length_cons]
          omega
        rw [Text.encode_append_cons (by decide)]
        exact .slash (namePart_encode_iff.mpr ⟨hpart, h.1⟩) (ih _ hlength h.2 rfl)
      · rw [isClassName, Text.splitAt_single hslash, List.all_cons, Bool.and_eq_true] at h
        exact .part (namePart_encode_iff.mpr ⟨hslash, h.1⟩)

theorem isClassName_of_className {bytes : Bytes} (h : ClassName bytes) :
    ∀ {name : List Char}, Text.encode name = bytes → isClassName name = true := by
  induction h with
  | part h =>
      rintro name rfl
      obtain ⟨hslash, hpart⟩ := namePart_encode_iff.mp h
      rw [isClassName, Text.splitAt_single hslash, List.all_cons, hpart]
      rfl
  | slash h _ ih =>
      intro name e
      obtain ⟨part, rest, rfl, rfl, hrest⟩ := Text.eq_append_of_encode (by decide) e
      obtain ⟨hslash, hpart⟩ := namePart_encode_iff.mp h
      rw [isClassName, Text.splitAt_cons rest hslash, List.all_cons, hpart]
      exact ih hrest

/-! ### Descriptors -/

variable {s rest : List Char} {t : ElementType}

/-- What a text is that is read as an element type. -/
theorem ofDescriptor?_eq_some_iff : ofDescriptor? s = some t ↔
    (∃ letter, s = [letter] ∧ (letter, t) ∈ primitives) ∨
      (∃ name, s = 'L' :: (name ++ [';']) ∧ isClassName name = true ∧ t = reference) ∨
      ∃ rest, s = '[' :: rest ∧ (ofDescriptor? rest).isSome ∧ t = reference := by
  constructor
  · intro h
    unfold ofDescriptor? at h
    split at h
    case h_9 rest =>
      split at h
      · next hname =>
        cases h
        obtain ⟨name, rfl⟩ := List.getLast?_eq_some_iff.mp hname.1
        rw [List.dropLast_concat] at hname
        exact .inr (.inl ⟨name, rfl, hname.2, rfl⟩)
      · cases h
    case h_10 rest =>
      obtain ⟨element, helement, rfl⟩ := Option.map_eq_some_iff.mp h
      exact .inr (.inr ⟨rest, rfl, by rw [helement]; rfl, rfl⟩)
    case h_11 => cases h
    all_goals
      cases h
      exact .inl ⟨_, rfl, by decide⟩
  · rintro (⟨letter, rfl, h⟩ | ⟨name, rfl, hname, rfl⟩ | ⟨rest, rfl, h, rfl⟩)
    · simp only [primitives, List.mem_cons, Prod.mk.injEq, List.not_mem_nil, or_false] at h
      rcases h with ⟨rfl, rfl⟩ | ⟨rfl, rfl⟩ | ⟨rfl, rfl⟩ | ⟨rfl, rfl⟩ | ⟨rfl, rfl⟩ | ⟨rfl, rfl⟩ |
        ⟨rfl, rfl⟩ | ⟨rfl, rfl⟩ <;> rfl
    · rw [ofDescriptor?, List.getLast?_concat, List.dropLast_concat]
      exact if_pos ⟨rfl, hname⟩
    · obtain ⟨element, helement⟩ := Option.isSome_iff_exists.mp h
      rw [ofDescriptor?, helement]
      rfl

theorem primitive_short {letter : Char} (h : (letter, t) ∈ primitives) : letter.toNat < 128 := by
  have hall : ∀ p ∈ primitives, p.1.toNat < 128 := by decide
  exact hall _ h

theorem isSome_bracket : (ofDescriptor? ('[' :: rest)).isSome ↔ (ofDescriptor? rest).isSome := by
  rw [ofDescriptor?, Option.isSome_map]

theorem derives_of_isSome (h : (ofDescriptor? s).isSome) : Derives (Text.encode s) := by
  induction s with
  | nil => cases h
  | cons c cs ih =>
      obtain ⟨t, ht⟩ := Option.isSome_iff_exists.mp h
      rcases ofDescriptor?_eq_some_iff.mp ht with
        ⟨letter, hs, hletter⟩ | ⟨name, hs, hname, -⟩ | ⟨rest, hs, hrest, -⟩
      · rw [hs, Text.encode_cons, Text.encodeChar_ascii (primitive_short hletter)]
        exact .primitive hletter
      · rw [hs, Text.encode_cons, Text.encode_append_cons (by decide)]
        exact .cls (className_of_isClassName hname)
      · obtain ⟨rfl, rfl⟩ := List.cons.inj hs
        exact .array (ih hrest)

theorem isSome_of_derives {bytes : Bytes} (h : Derives bytes) :
    ∀ {s : List Char}, Text.encode s = bytes → (ofDescriptor? s).isSome := by
  induction h with
  | primitive h =>
      intro s e
      obtain ⟨rest, rfl, hrest⟩ := Text.eq_cons_of_encode (primitive_short h) e
      obtain rfl := Text.encode_eq_nil_iff.mp hrest
      exact Option.isSome_of_eq_some (ofDescriptor?_eq_some_iff.mpr (.inl ⟨_, rfl, h⟩))
  | cls h =>
      intro s e
      obtain ⟨rest, rfl, hrest⟩ := Text.eq_cons_of_encode (by decide) e
      obtain ⟨name, last, rfl, rfl, hlast⟩ := Text.eq_append_of_encode (by decide) hrest
      obtain rfl := Text.encode_eq_nil_iff.mp hlast
      have hname : isClassName name = true := isClassName_of_className h rfl
      exact Option.isSome_of_eq_some
        (ofDescriptor?_eq_some_iff.mpr (.inr (.inl ⟨name, rfl, hname, rfl⟩)))
  | array _ ih =>
      intro s e
      obtain ⟨rest, rfl, hrest⟩ := Text.eq_cons_of_encode (by decide) e
      exact isSome_bracket.mpr (ih hrest)

/-- **Descriptors are what the grammar derives.**  A text is read as an element type if and only if
its bytes derive from the grammar: a letter as the primitive type that it stands for, and every
other text as a reference.  A bracket in front changes nothing about whether it is read. -/
theorem descriptors_derive (s : List Char) :
    ((ofDescriptor? s).isSome ↔ Derives (Text.encode s)) ∧
      (∀ t, ofDescriptor? s = some t ↔
        (∃ letter, s = [letter] ∧ (letter, t) ∈ primitives) ∨
          s.length ≠ 1 ∧ Derives (Text.encode s) ∧ t = reference) ∧
      ((ofDescriptor? ('[' :: s)).isSome ↔ (ofDescriptor? s).isSome) := by
  have hderives : (ofDescriptor? s).isSome ↔ Derives (Text.encode s) :=
    ⟨derives_of_isSome, fun h => isSome_of_derives h rfl⟩
  refine ⟨hderives, fun t => ?_, isSome_bracket⟩
  constructor
  · intro h
    have hsome := hderives.mp (Option.isSome_of_eq_some h)
    rcases ofDescriptor?_eq_some_iff.mp h with
      hletter | ⟨name, rfl, -, rfl⟩ | ⟨rest, rfl, hrest, rfl⟩
    · exact .inl hletter
    · exact .inr ⟨by simp, hsome, rfl⟩
    · -- a lone bracket is not read
      have hne : rest ≠ [] := by
        rintro rfl
        cases hrest
      exact .inr ⟨by simpa using hne, hsome, rfl⟩
  · rintro (hletter | ⟨hlength, hs, rfl⟩)
    · exact ofDescriptor?_eq_some_iff.mpr (.inl hletter)
    · obtain ⟨t, ht⟩ := Option.isSome_iff_exists.mp (hderives.mpr hs)
      rcases ofDescriptor?_eq_some_iff.mp ht with
        ⟨letter, rfl, -⟩ | ⟨name, rfl, -, rfl⟩ | ⟨rest, rfl, -, rfl⟩
      · exact absurd rfl hlength
      · exact ht
      · exact ht

end TracedMachine.ElementType
