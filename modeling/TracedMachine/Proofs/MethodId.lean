import TracedMachine.MethodId

/-!
# Proofs — MethodId

The two things that are done with method ids.  An id and an action are put into one word, and both
come out of it again, the id without its two low bits (`Action.ofBits?_word`,
`MethodId.ofWord_word`).  Ids are collected into lists in ascending order, each once
(`MethodId.ascending_foldl_insert`, `MethodId.mem_foldl_insert`).
-/

namespace TracedMachine

/-! ### Methods and actions in words -/

theorem MethodId.toNat_word (m : MethodId) (a : Action) :
    (m.word a).toNat = m.raw.toNat / 4 * 4 + a.bits.toNat := by
  have hm := m.raw.toNat_lt
  have hfour : (4 : UInt32).toNat = 4 := rfl
  have ha : a.bits.toNat < 4 := by cases a <;> decide
  rw [word, UInt32.toNat_add, UInt32.toNat_mul, UInt32.toNat_div, hfour]
  omega

theorem MethodId.toNat_ofWord (w : UInt32) : (ofWord w).raw.toNat = w.toNat / 4 * 4 := by
  have hw := w.toNat_lt
  have hfour : (4 : UInt32).toNat = 4 := rfl
  rw [ofWord, UInt32.toNat_mul, UInt32.toNat_div, hfour]
  omega

/-- The action of a word is the one that was put into it. -/
theorem Action.ofBits?_word (m : MethodId) (a : Action) : ofBits? (m.word a) = some a := by
  have hfour : (4 : UInt32).toNat = 4 := rfl
  have e : (m.word a % 4).toNat = a.bits.toNat := by
    have ha : a.bits.toNat < 4 := by cases a <;> decide
    rw [UInt32.toNat_mod, MethodId.toNat_word, hfour]
    omega
  rw [ofBits?, e]
  cases a <;> rfl

/-- The method of a word is the one that was put into it, without its low bits. -/
theorem MethodId.ofWord_word (m : MethodId) (a : Action) : ofWord (m.word a) = ofWord m.raw := by
  have ha : a.bits.toNat < 4 := by cases a <;> decide
  have e : (ofWord (m.word a)).raw.toNat = (ofWord m.raw).raw.toNat := by
    rw [toNat_ofWord, toNat_ofWord, toNat_word]
    omega
  exact congrArg MethodId.mk (UInt32.toNat_inj.mp e)

theorem MethodId.low_bits_iff (m : MethodId) : m.raw % 4 = 0 ↔ m.raw.toNat % 4 = 0 := by
  have hfour : (4 : UInt32).toNat = 4 := rfl
  rw [← UInt32.toNat_inj, UInt32.toNat_mod, hfour]
  rfl

theorem MethodId.low_bits_ofWord (w : UInt32) : (ofWord w).raw % 4 = 0 := by
  rw [low_bits_iff, toNat_ofWord]
  omega

/-- An id is the same without its low bits if they are clear. -/
theorem MethodId.ofWord_raw {m : MethodId} (hm : m.raw % 4 = 0) : ofWord m.raw = m := by
  rw [low_bits_iff] at hm
  refine congrArg MethodId.mk (UInt32.toNat_inj.mp ?_)
  have e := toNat_ofWord m.raw
  exact e.trans (by omega)

/-- In a word, an id is as good as itself without its low bits. -/
theorem MethodId.word_ofWord_raw (m : MethodId) (a : Action) :
    (ofWord m.raw).word a = m.word a := by
  refine UInt32.toNat_inj.mp ?_
  rw [toNat_word, toNat_word, toNat_ofWord]
  omega

/-! ### Ids in ascending order -/

/-- Ids in ascending order, each once. -/
def MethodId.Ascending (ids : List MethodId) : Prop := ids.Pairwise fun a b => a.raw < b.raw

instance MethodId.decidableAscending (ids : List MethodId) : Decidable (Ascending ids) :=
  inferInstanceAs (Decidable (ids.Pairwise _))

theorem MethodId.mem_insert {id m : MethodId} {ids : List MethodId} :
    m ∈ id.insert ids ↔ m = id ∨ m ∈ ids := by
  fun_induction MethodId.insert id ids with
  | case1 => exact List.mem_cons
  | case2 first rest hlt => exact List.mem_cons
  | case3 rest => simp
  | case4 first rest hlt hne ih =>
      rw [List.mem_cons, ih, List.mem_cons]
      exact or_left_comm

theorem MethodId.ascending_insert {ids : List MethodId} (h : Ascending ids) (id : MethodId) :
    Ascending (id.insert ids) := by
  fun_induction MethodId.insert id ids with
  | case1 => exact List.pairwise_singleton _ _
  | case2 first rest hlt =>
      refine List.pairwise_cons.mpr ⟨fun m hm => ?_, h⟩
      rcases List.mem_cons.mp hm with rfl | hm
      · exact hlt
      · exact UInt32.lt_trans hlt (List.rel_of_pairwise_cons h hm)
  | case3 rest => exact h
  | case4 first rest hlt hne ih =>
      obtain ⟨hfirst, hrest⟩ := List.pairwise_cons.mp h
      refine List.pairwise_cons.mpr ⟨fun m hm => ?_, ih hrest⟩
      rcases mem_insert.mp hm with rfl | hm
      · refine UInt32.lt_of_le_of_ne (UInt32.not_lt.mp hlt) fun e => hne ?_
        exact congrArg MethodId.mk e.symm
      · exact hfirst m hm

/-- Collecting ids keeps them in order. -/
theorem MethodId.ascending_foldl_insert {ids : List MethodId} (h : Ascending ids)
    (ms : List MethodId) : Ascending (ms.foldl (fun ids m => m.insert ids) ids) := by
  induction ms generalizing ids with
  | nil => exact h
  | cons m ms ih => exact ih (ascending_insert h m)

/-- The ids that are collected are there, and no others come in. -/
theorem MethodId.mem_foldl_insert {id : MethodId} {ids ms : List MethodId} :
    id ∈ ms.foldl (fun ids m => m.insert ids) ids ↔ id ∈ ms ∨ id ∈ ids := by
  induction ms generalizing ids with
  | nil => simp
  | cons m ms ih =>
      rw [List.foldl_cons, ih, mem_insert, List.mem_cons, or_left_comm, or_assoc]

end TracedMachine
