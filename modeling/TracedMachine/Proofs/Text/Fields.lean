import TracedMachine.Text.Number
import TracedMachine.Text.Split
import Mathlib.Tactic.IntervalCases
import Mathlib.Tactic.Ring

/-!
# Proofs — Text — Fields

What is written on a line and read back: numbers, and the fields between separators.

A number is read digit by digit from the left, so `digitsValue?` of a text is settled by what its
last digit adds (`digitsValue?_append`); the decimal and the hexadecimal writer each put the lowest
digit last (`digitsValue?_toDigits`, `digitsValue?_hexDigits`).  A reader also allows for a plus
sign, which no written number begins with.

Cutting a text at a separator gives back the fields that were joined, if they are free of it
(`splitAt_cons`, `splitOnce?_append`); and whatever the text is, the pieces are free of it
(`not_mem_of_mem_splitAt`).
-/

namespace TracedMachine.Text

/-! ### Digits -/

theorem digitValue?_digitChar {base d : Nat} (hb : base ≤ 16) (hd : d < base) :
    digitValue? base (Nat.digitChar d) = some d := by
  have h : d < 16 := by omega
  interval_cases d <;> simp [digitValue?, Nat.digitChar, hd]

/-- The separators and signs that stand beside written numbers. -/
def marks : List Char := ['\t', '\n', '+', '*']

theorem digitChar_not_mem_marks {d : Nat} (hd : d < 16) : Nat.digitChar d ∉ marks := by
  interval_cases d <;> decide

theorem digitsValue?_append (base : Nat) : ∀ (acc : Nat) (xs ys : List Char),
    digitsValue? base acc (xs ++ ys) =
      (digitsValue? base acc xs).bind fun a => digitsValue? base a ys
  | _, [], _ => rfl
  | acc, x :: xs, ys => by
      simp only [List.cons_append, digitsValue?, Option.bind_assoc]
      congr 1
      funext d
      exact digitsValue?_append base _ xs ys

/-- The lowest digit of a text stands last. -/
theorem digitsValue?_snoc {base d a acc : Nat} {xs : List Char} (hb : base ≤ 16) (hd : d < base)
    (e : digitsValue? base acc xs = some a) :
    digitsValue? base acc (xs ++ [Nat.digitChar d]) = some (a * base + d) := by
  rw [digitsValue?_append, e]
  simp only [Option.bind_some, digitsValue?, digitValue?_digitChar hb hd]

/-! ### Decimal numbers -/

theorem digitsValue?_toDigits (n : Nat) : digitsValue? 10 0 (Nat.toDigits 10 n) = some n := by
  induction n using Nat.strongRecOn with
  | ind n ih =>
      by_cases hn : n < 10
      · rw [Nat.toDigits_of_lt_base hn]
        have hdigit : digitValue? 10 (Nat.digitChar n) = some n :=
          digitValue?_digitChar (by omega) hn
        simp [digitsValue?, hdigit]
      · rw [Nat.toDigits_of_base_le (by omega) (by omega),
          digitsValue?_snoc (by omega) (by omega) (ih (n / 10) (by omega))]
        congr 1
        omega

theorem mem_toDigits {n : Nat} {c : Char} (hc : c ∈ Nat.toDigits 10 n) :
    ∃ d < 10, c = Nat.digitChar d := by
  induction n using Nat.strongRecOn with
  | ind n ih =>
      by_cases hn : n < 10
      · rw [Nat.toDigits_of_lt_base hn] at hc
        exact ⟨n, hn, List.mem_singleton.mp hc⟩
      · rw [Nat.toDigits_of_base_le (by omega) (by omega), List.mem_append] at hc
        rcases hc with hc | hc
        · exact ih (n / 10) (by omega) hc
        · exact ⟨n % 10, by omega, List.mem_singleton.mp hc⟩

theorem mark_not_mem_toDigits {n : Nat} {c : Char} (hc : c ∈ marks) : c ∉ Nat.toDigits 10 n := by
  intro hm
  obtain ⟨d, hd, rfl⟩ := mem_toDigits hm
  exact digitChar_not_mem_marks (by omega) hc

/-! ### Hexadecimal numbers -/

theorem digitsValue?_hexDigits (width n acc : Nat) :
    digitsValue? 16 acc (hexDigits width n) = some (acc * 16 ^ width + n % 16 ^ width) := by
  induction width generalizing n with
  | zero => simp [hexDigits, digitsValue?, Nat.mod_one]
  | succ width ih =>
      rw [hexDigits, digitsValue?_snoc (by omega) (by omega) (ih (n / 16))]
      congr 1
      have hmod : n % 16 ^ (width + 1) = n % 16 + 16 * (n / 16 % 16 ^ width) := by
        rw [Nat.pow_succ, Nat.mul_comm, Nat.mod_mul]
      rw [hmod]
      ring

theorem mem_hexDigits {width n : Nat} {c : Char} (hc : c ∈ hexDigits width n) :
    ∃ d < 16, c = Nat.digitChar d := by
  induction width generalizing n with
  | zero => cases hc
  | succ width ih =>
      rw [hexDigits, List.mem_append] at hc
      rcases hc with hc | hc
      · exact ih hc
      · exact ⟨n % 16, by omega, List.mem_singleton.mp hc⟩

theorem mark_not_mem_hexDigits {width n : Nat} {c : Char} (hc : c ∈ marks) :
    c ∉ hexDigits width n := by
  intro hm
  obtain ⟨d, hd, rfl⟩ := mem_hexDigits hm
  exact digitChar_not_mem_marks hd hc

theorem hexDigits_ne_nil {width n : Nat} (hw : 0 < width) : hexDigits width n ≠ [] := by
  cases width with
  | zero => omega
  | succ width => simp [hexDigits]

/-! ### Reading numbers -/

/-- Digits without a sign are read for their value. -/
theorem readNat?_digits {base max n : Nat} {cs : List Char} (hne : cs ≠ []) (hsign : '+' ∉ cs)
    (e : digitsValue? base 0 cs = some n) (hn : n ≤ max) : readNat? base max cs = some n := by
  cases cs with
  | nil => exact absurd rfl hne
  | cons c cs =>
      have hc : c ≠ '+' := fun h => hsign (h ▸ List.mem_cons_self)
      have hread : readNat? base max (c :: cs) = readDigits? base max (c :: cs) := by
        unfold readNat?
        split
        · next h => exact absurd (List.cons.inj h).1 hc
        · rfl
      rw [hread]
      simp [readDigits?, e, hn]

theorem readNat?_toDigits {max n : Nat} (hn : n ≤ max) :
    readNat? 10 max (Nat.toDigits 10 n) = some n := by
  have hsign : '+' ∉ Nat.toDigits 10 n := mark_not_mem_toDigits (by decide)
  exact readNat?_digits Nat.toDigits_ne_nil hsign (digitsValue?_toDigits n) hn

theorem readNat?_hexDigits {width max n : Nat} (hw : 0 < width) (hn : n < 16 ^ width)
    (hmax : n ≤ max) : readNat? 16 max (hexDigits width n) = some n := by
  have hsign : '+' ∉ hexDigits width n := mark_not_mem_hexDigits (by decide)
  refine readNat?_digits (hexDigits_ne_nil hw) hsign ?_ hmax
  rw [digitsValue?_hexDigits, Nat.mod_eq_of_lt hn, Nat.zero_mul, Nat.zero_add]

/-! ### Fields -/

theorem splitAt_cons {sep : Char} (rest : List Char) : ∀ {field : List Char}, sep ∉ field →
    splitAt sep (field ++ sep :: rest) = field :: splitAt sep rest
  | [], _ => by simp [splitAt]
  | c :: field, h => by
      have hc : c ≠ sep := fun e => h (e ▸ List.mem_cons_self)
      have ih := splitAt_cons rest (fun hm => h (List.mem_cons_of_mem c hm) : sep ∉ field)
      rw [List.cons_append, splitAt, if_neg hc, ih]

theorem splitAt_single {sep : Char} : ∀ {field : List Char}, sep ∉ field →
    splitAt sep field = [field]
  | [], _ => rfl
  | c :: field, h => by
      have hc : c ≠ sep := fun e => h (e ▸ List.mem_cons_self)
      have ih := splitAt_single (fun hm => h (List.mem_cons_of_mem c hm) : sep ∉ field)
      rw [splitAt, if_neg hc, ih]

/-- A piece of a text is free of the separator and has its characters from the text. -/
theorem not_mem_of_mem_splitAt {sep : Char} : ∀ {cs piece : List Char}, piece ∈ splitAt sep cs →
    sep ∉ piece ∧ ∀ c ∈ piece, c ∈ cs
  | [], piece, hp => by
      rw [splitAt, List.mem_singleton] at hp
      subst hp
      simp
  | c :: cs, piece, hp => by
      have ih : ∀ piece ∈ splitAt sep cs, sep ∉ piece ∧ ∀ c ∈ piece, c ∈ cs :=
        fun _ => not_mem_of_mem_splitAt
      rw [splitAt] at hp
      split at hp
      · rcases List.mem_cons.mp hp with rfl | hp
        · simp
        · exact ⟨(ih piece hp).1, fun x hx => List.mem_cons_of_mem c ((ih piece hp).2 x hx)⟩
      · next hc =>
          split at hp
          · rw [List.mem_singleton] at hp
            subst hp
            simp [Ne.symm hc]
          · next first pieces e =>
              rw [e] at ih
              rcases List.mem_cons.mp hp with rfl | hp
              · obtain ⟨hsep, hsub⟩ := ih first List.mem_cons_self
                refine ⟨fun hm => ?_, fun x hx => ?_⟩
                · rcases List.mem_cons.mp hm with hm | hm
                  · exact hc hm.symm
                  · exact hsep hm
                · rcases List.mem_cons.mp hx with rfl | hx
                  · exact List.mem_cons_self
                  · exact List.mem_cons_of_mem c (hsub x hx)
              · obtain ⟨hsep, hsub⟩ := ih piece (List.mem_cons_of_mem first hp)
                exact ⟨hsep, fun x hx => List.mem_cons_of_mem c (hsub x hx)⟩

theorem splitOnce?_append {sep : Char} (after : List Char) : ∀ {before : List Char}, sep ∉ before →
    splitOnce? sep (before ++ sep :: after) = some (before, after)
  | [], _ => by simp [splitOnce?]
  | c :: before, h => by
      have hc : c ≠ sep := fun e => h (e ▸ List.mem_cons_self)
      have ih := splitOnce?_append after (fun hm => h (List.mem_cons_of_mem c hm) : sep ∉ before)
      rw [List.cons_append, splitOnce?, if_neg hc, ih, Option.map_some]

theorem eq_append_of_splitOnce? {sep : Char} : ∀ {cs before after : List Char},
    splitOnce? sep cs = some (before, after) → cs = before ++ sep :: after
  | [], _, _, e => by cases e
  | c :: cs, before, after, e => by
      rw [splitOnce?] at e
      split at e
      · next hc => cases e; rw [hc, List.nil_append]
      · obtain ⟨⟨front, rest⟩, e', h⟩ := Option.map_eq_some_iff.mp e
        cases h
        rw [eq_append_of_splitOnce? e', List.cons_append]

end TracedMachine.Text
