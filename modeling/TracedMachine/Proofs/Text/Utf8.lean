import TracedMachine.Text.Utf8
import Mathlib.Logic.Basic

/-!
# Proofs — Text — Utf8

Reading undoes writing (`decode_encode`): the machine that reads, started between characters,
takes the bytes of a character, writes the character and stands between characters again
(`read_encodeChar`).  The proof follows the four lengths of a character.  The first byte of a
longer one says which bytes may come second; those bounds are what keeps out the values that have
a shorter form and the ones that are no characters, and a character passes them.

The byte of a character below 128 is written for that character only (`ascii_mem_encode`).  Line
feeds, which are such characters, are neither made nor lost on the way: a byte 10 is written for a
line feed only (`newline_mem_encode`), and any bytes, well formed or not, give a line feed only for
a byte 10 (`newline_mem_decode`).  The second holds because a character of several bytes is never
below 128, which `Utf8State.Long` says of a reader in its middle.
-/

namespace TracedMachine.Text

theorem toNat_toUInt8 {n : Nat} (hn : n < 256) : n.toUInt8.toNat = n := by
  rw [UInt8.toNat_ofNat', Nat.mod_eq_of_lt hn]

/-! ### One byte -/

theorem Utf8State.read_cons (state : Utf8State) (b : UInt8) (bytes : List UInt8) :
    state.read (b :: bytes) = (state.step b).1 ++ (state.step b).2.read bytes := by
  cases state <;> rfl

/-- A reader that is owed one byte takes it and has its character. -/
theorem read_last {low high value : Nat} {b : UInt8} (hb : low ≤ b.toNat ∧ b.toNat ≤ high)
    (bytes : List UInt8) :
    (Utf8State.inside 0 low high value).read (b :: bytes) =
      Char.ofNat (value * 64 + b.toNat % 64) :: Utf8State.start.read bytes := by
  simp only [Utf8State.read_cons, Utf8State.step, if_pos hb, List.singleton_append]

/-- A reader that is owed more bytes takes one. -/
theorem read_more {more low high value : Nat} {b : UInt8} (hb : low ≤ b.toNat ∧ b.toNat ≤ high)
    (bytes : List UInt8) :
    (Utf8State.inside (more + 1) low high value).read (b :: bytes) =
      (Utf8State.inside more 0x80 0xbf (value * 64 + b.toNat % 64)).read bytes := by
  simp only [Utf8State.read_cons, Utf8State.step, if_pos hb, List.nil_append]

theorem read_ascii {b : UInt8} (hb : b.toNat < 0x80) (bytes : List UInt8) :
    Utf8State.start.read (b :: bytes) = Char.ofNat b.toNat :: Utf8State.start.read bytes := by
  simp only [Utf8State.read_cons, Utf8State.step, beginChar, if_pos hb, List.singleton_append]

/-- The first of two bytes. -/
theorem read_first_of_two {b : UInt8} {x : Nat} (hb : b.toNat = 0xc0 + x) (hx : 2 ≤ x ∧ x < 32)
    (bytes : List UInt8) :
    Utf8State.start.read (b :: bytes) = (Utf8State.inside 0 0x80 0xbf x).read bytes := by
  have h₁ : ¬ 0xc0 + x < 0x80 := by omega
  have h₂ : ¬ 0xc0 + x < 0xc2 := by omega
  have h₃ : 0xc0 + x < 0xe0 := by omega
  have hv : 0xc0 + x - 0xc0 = x := by omega
  simp only [Utf8State.read_cons, Utf8State.step, beginChar, hb, if_neg h₁, if_neg h₂, if_pos h₃,
    hv, List.nil_append]

/-- The first of three bytes. -/
theorem read_first_of_three {b : UInt8} {x : Nat} (hb : b.toNat = 0xe0 + x) (hx : x < 16)
    (bytes : List UInt8) :
    Utf8State.start.read (b :: bytes) =
      (Utf8State.inside 1 (if x = 0 then 0xa0 else 0x80) (if x = 0xd then 0x9f else 0xbf) x).read
        bytes := by
  have hfirst : beginChar b =
      ([], .inside 1 (if x = 0 then 0xa0 else 0x80) (if x = 0xd then 0x9f else 0xbf) x) := by
    simp only [beginChar, hb]
    grind
  rw [Utf8State.read_cons, Utf8State.step, hfirst, List.nil_append]

/-- The first of four bytes. -/
theorem read_first_of_four {b : UInt8} {x : Nat} (hb : b.toNat = 0xf0 + x) (hx : x ≤ 4)
    (bytes : List UInt8) :
    Utf8State.start.read (b :: bytes) =
      (Utf8State.inside 2 (if x = 0 then 0x90 else 0x80) (if x = 4 then 0x8f else 0xbf) x).read
        bytes := by
  have hfirst : beginChar b =
      ([], .inside 2 (if x = 0 then 0x90 else 0x80) (if x = 4 then 0x8f else 0xbf) x) := by
    simp only [beginChar, hb]
    grind
  rw [Utf8State.read_cons, Utf8State.step, hfirst, List.nil_append]

/-! ### One character -/

/-- The numbers of characters: none of them is a surrogate. -/
theorem toNat_char (c : Char) : c.toNat < 0xd800 ∨ (0xdfff < c.toNat ∧ c.toNat < 0x110000) :=
  c.valid

/-- A byte after the first holds six bits. -/
theorem toNat_tail {x : Nat} (hx : x < 64) :
    (0x80 + x).toUInt8.toNat = 0x80 + x ∧ (0x80 + x).toUInt8.toNat % 64 = x := by
  rw [toNat_toUInt8 (by omega)]
  omega

/-- **The bytes of a character are read as the character.** -/
theorem read_encodeChar (c : Char) (bytes : List UInt8) :
    Utf8State.start.read (encodeChar c ++ bytes) = c :: Utf8State.start.read bytes := by
  have hc := toNat_char c
  unfold encodeChar
  simp only
  generalize hv : c.toNat = v at hc
  have hback : Char.ofNat v = c := by rw [← hv, Char.ofNat_toNat]
  split
  · next h₁ =>
      have hb : v.toUInt8.toNat = v := toNat_toUInt8 (by omega)
      rw [List.cons_append, List.nil_append, read_ascii (by omega), hb, hback]
  · split
    · next h₁ h₂ =>
        obtain ⟨e₂, r₂⟩ := toNat_tail (show v % 64 < 64 by omega)
        have e₁ : (0xc0 + v / 64).toUInt8.toNat = 0xc0 + v / 64 := toNat_toUInt8 (by omega)
        have hsum : v / 64 * 64 + v % 64 = v := by omega
        simp only [List.cons_append, List.nil_append]
        rw [read_first_of_two e₁ (by omega), read_last (by omega), r₂, hsum, hback]
    · split
      · next h₁ h₂ h₃ =>
          obtain ⟨e₂, r₂⟩ := toNat_tail (show v / 64 % 64 < 64 by omega)
          obtain ⟨e₃, r₃⟩ := toNat_tail (show v % 64 < 64 by omega)
          have e₁ : (0xe0 + v / 4096).toUInt8.toNat = 0xe0 + v / 4096 := toNat_toUInt8 (by omega)
          have hsum : (v / 4096 * 64 + v / 64 % 64) * 64 + v % 64 = v := by omega
          simp only [List.cons_append, List.nil_append]
          rw [read_first_of_three e₁ (by omega), read_more, read_last (by omega), r₂, r₃, hsum,
            hback]
          rw [e₂]
          constructor <;> split <;> omega
      · next h₁ h₂ h₃ =>
          obtain ⟨e₂, r₂⟩ := toNat_tail (show v / 4096 % 64 < 64 by omega)
          obtain ⟨e₃, r₃⟩ := toNat_tail (show v / 64 % 64 < 64 by omega)
          obtain ⟨e₄, r₄⟩ := toNat_tail (show v % 64 < 64 by omega)
          have e₁ : (0xf0 + v / 262144).toUInt8.toNat = 0xf0 + v / 262144 :=
            toNat_toUInt8 (by omega)
          have hsum : ((v / 262144 * 64 + v / 4096 % 64) * 64 + v / 64 % 64) * 64 + v % 64 = v := by
            omega
          simp only [List.cons_append, List.nil_append]
          rw [read_first_of_four e₁ (by omega), read_more, read_more (by omega),
            read_last (by omega), r₂, r₃, r₄, hsum, hback]
          rw [e₂]
          constructor <;> split <;> omega

theorem encode_cons (c : Char) (cs : List Char) :
    encode (c :: cs) = encodeChar c ++ encode cs := rfl

/-- **Reading undoes writing.** -/
theorem decode_encode (cs : List Char) : decode (encode cs) = cs := by
  induction cs with
  | nil => rfl
  | cons c cs ih =>
      rw [encode_cons, decode, read_encodeChar]
      exact congrArg (c :: ·) ih

/-! ### Characters of one byte -/

theorem encodeChar_ascii {c : Char} (hc : c.toNat < 128) : encodeChar c = [c.toUInt8] := by
  unfold encodeChar
  exact if_pos hc

/-- No byte of a longer character is below 128. -/
theorem encodeChar_high {c : Char} (hc : ¬ c.toNat < 128) : ∀ b ∈ encodeChar c, 128 ≤ b.toNat := by
  have hvalid := toNat_char c
  intro b hb
  unfold encodeChar at hb
  simp only [if_neg hc] at hb
  split at hb
  · simp only [List.mem_cons, List.not_mem_nil, or_false] at hb
    rcases hb with rfl | rfl <;> rw [toNat_toUInt8 (by omega)] <;> omega
  · split at hb
    · simp only [List.mem_cons, List.not_mem_nil, or_false] at hb
      rcases hb with rfl | rfl | rfl <;> rw [toNat_toUInt8 (by omega)] <;> omega
    · simp only [List.mem_cons, List.not_mem_nil, or_false] at hb
      rcases hb with rfl | rfl | rfl | rfl <;> rw [toNat_toUInt8 (by omega)] <;> omega

theorem toNat_toUInt8_ascii {c : Char} (hc : c.toNat < 128) : c.toUInt8.toNat = c.toNat :=
  Nat.mod_eq_of_lt (Nat.lt_trans hc (by decide))

/-- The byte of a short character is written for that character only. -/
theorem ascii_mem_encodeChar {c d : Char} (hc : c.toNat < 128) :
    c.toUInt8 ∈ encodeChar d ↔ d = c := by
  constructor
  · intro hm
    by_cases hd : d.toNat < 128
    · rw [encodeChar_ascii hd, List.mem_singleton] at hm
      have h := congrArg UInt8.toNat hm
      rw [toNat_toUInt8_ascii hc, toNat_toUInt8_ascii hd] at h
      exact Char.toNat_inj.mp h.symm
    · have h := encodeChar_high hd _ hm
      rw [toNat_toUInt8_ascii hc] at h
      omega
  · rintro rfl
    rw [encodeChar_ascii hc]
    exact List.mem_singleton_self _

theorem ascii_mem_encode {c : Char} (hc : c.toNat < 128) {cs : List Char} :
    c.toUInt8 ∈ encode cs ↔ c ∈ cs := by
  simp only [encode, List.mem_flatMap, ascii_mem_encodeChar hc, exists_eq_right]

theorem encode_eq_nil_iff {cs : List Char} : encode cs = [] ↔ cs = [] := by
  constructor
  · intro e
    have h := decode_encode cs
    rw [e] at h
    exact h.symm
  · rintro rfl
    rfl

theorem encode_append_cons {c : Char} (hc : c.toNat < 128) (before after : List Char) :
    encode (before ++ c :: after) = encode before ++ c.toUInt8 :: encode after := by
  rw [encode, List.flatMap_append, List.flatMap_cons, encodeChar_ascii hc]
  rfl

/-- Bytes can be cut at a character of one byte where the text can. -/
theorem eq_append_of_encode {c : Char} (hc : c.toNat < 128) :
    ∀ {cs : List Char} {front back : List UInt8}, encode cs = front ++ c.toUInt8 :: back →
      ∃ before after, cs = before ++ c :: after ∧ encode before = front ∧ encode after = back
  | [], front, back, e => by simp [encode] at e
  | d :: cs, front, back, e => by
      by_cases hfirst : front = [] ∧ d = c
      · -- the first character is the one to cut at
        obtain ⟨rfl, rfl⟩ := hfirst
        rw [encode_cons, encodeChar_ascii hc] at e
        exact ⟨[], cs, rfl, rfl, (List.cons.inj e).2⟩
      · -- its bytes stand in front of the cut
        have hfront : ∃ rest, front = encodeChar d ++ rest ∧
            encode cs = rest ++ c.toUInt8 :: back := by
          rw [encode_cons] at e
          rcases List.append_eq_append_iff.mp e with h | ⟨rest, hd, hrest⟩
          · exact h
          · cases rest with
            | nil => exact ⟨[], by simpa using hd.symm, hrest.symm⟩
            | cons b rest =>
                obtain ⟨rfl, -⟩ := List.cons.inj hrest
                have hmem : c.toUInt8 ∈ encodeChar d := by simp [hd]
                obtain rfl := (ascii_mem_encodeChar hc).mp hmem
                rw [encodeChar_ascii hc] at hd
                cases front with
                | nil => exact absurd ⟨rfl, rfl⟩ hfirst
                | cons b front => simp at hd
        obtain ⟨rest, rfl, hrest⟩ := hfront
        obtain ⟨before, after, rfl, rfl, hafter⟩ := eq_append_of_encode hc hrest
        exact ⟨d :: before, after, rfl, rfl, hafter⟩

theorem eq_cons_of_encode {c : Char} (hc : c.toNat < 128) {cs : List Char} {back : List UInt8}
    (e : encode cs = c.toUInt8 :: back) : ∃ after, cs = c :: after ∧ encode after = back := by
  have e : encode cs = [] ++ c.toUInt8 :: back := e
  obtain ⟨before, after, rfl, hbefore, hafter⟩ := eq_append_of_encode hc e
  obtain rfl := encode_eq_nil_iff.mp hbefore
  exact ⟨after, rfl, hafter⟩

/-! ### Line feeds -/

/-- A line feed byte is written for a line feed only. -/
theorem newline_mem_encode {cs : List Char} : 10 ∈ encode cs ↔ '\n' ∈ cs :=
  ascii_mem_encode (show '\n'.toNat < 128 by decide)

/-- A reader in the middle of a character has read enough for one that is no line feed. -/
def Utf8State.Long : Utf8State → Prop
  | .start => True
  | .inside 0 _ _ value => 2 ≤ value
  | .inside (_ + 1) low high value => 0x80 ≤ low ∧ high ≤ 0xbf ∧ (1 ≤ value ∨ 0x90 ≤ low)

theorem ofNat_ne_newline {n : Nat} (hn : n ≠ 10) : Char.ofNat n ≠ '\n' := by
  intro e
  by_cases hvalid : n.isValidChar
  · rw [Char.ofNat, dif_pos hvalid] at e
    exact hn (congrArg Char.toNat e)
  · rw [Char.ofNat, dif_neg hvalid] at e
    exact absurd (congrArg Char.toNat e) (by decide)

theorem newline_of_beginChar {b : UInt8} :
    ('\n' ∈ (beginChar b).1 → b = 10) ∧ (beginChar b).2.Long := by
  have hr : '\n' ≠ replacement := by decide
  by_cases hb : b.toNat = 10
  · have hten : b = 10 := UInt8.toNat_inj.mp hb
    subst hten
    exact ⟨fun _ => rfl, trivial⟩
  · have hne : '\n' ≠ Char.ofNat b.toNat := (ofNat_ne_newline hb).symm
    unfold beginChar
    simp only
    repeat' split
    all_goals simp only [List.mem_singleton, hne, hr, List.not_mem_nil, false_implies, true_and,
      Utf8State.Long]
    all_goals omega

/-- One byte of any state: a line feed is written for the byte 10 only. -/
theorem newline_of_step {state : Utf8State} (hl : state.Long) {b : UInt8} :
    ('\n' ∈ (state.step b).1 → b = 10) ∧ (state.step b).2.Long := by
  cases state with
  | start => exact newline_of_beginChar
  | inside more low high value =>
      obtain ⟨hmem, hlong⟩ := newline_of_beginChar (b := b)
      have hr : '\n' ≠ replacement := by decide
      by_cases hb : low ≤ b.toNat ∧ b.toNat ≤ high
      · cases more with
        | zero =>
            have hne : '\n' ≠ Char.ofNat (value * 64 + b.toNat % 64) :=
              (ofNat_ne_newline (by simp only [Utf8State.Long] at hl; omega)).symm
            simp [Utf8State.step, hb, hne, Utf8State.Long]
        | succ more =>
            have hvalue : 2 ≤ value * 64 + b.toNat % 64 := by
              simp only [Utf8State.Long] at hl
              have := b.toNat_lt
              omega
            cases more <;> simp [Utf8State.step, hb, Utf8State.Long] <;> omega
      · simp only [Utf8State.step, if_neg hb]
        exact ⟨fun hm => hmem ((List.mem_cons.mp hm).resolve_left hr), hlong⟩

/-- Whatever the bytes are, a line feed is read for the byte 10 only. -/
theorem newline_mem_decode {bytes : List UInt8} (hm : '\n' ∈ decode bytes) : 10 ∈ bytes := by
  have hread : ∀ (bytes : List UInt8) (state : Utf8State), state.Long →
      '\n' ∈ state.read bytes → 10 ∈ bytes := by
    intro bytes
    induction bytes with
    | nil =>
        intro state _ hm
        cases state with
        | start => cases hm
        | inside => exact absurd (List.mem_singleton.mp hm) (by decide)
    | cons b bytes ih =>
        intro state hl hm
        obtain ⟨hmem, hlong⟩ := newline_of_step hl (b := b)
        rw [Utf8State.read_cons, List.mem_append] at hm
        rcases hm with hm | hm
        · exact List.mem_cons.mpr (.inl (hmem hm).symm)
        · exact List.mem_cons.mpr (.inr (ih _ hlong hm))
  exact hread bytes .start trivial hm

end TracedMachine.Text
