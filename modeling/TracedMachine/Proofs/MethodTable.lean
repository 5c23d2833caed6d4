import TracedMachine.Method
import TracedMachine.Proofs.MethodId
import Mathlib.Algebra.Group.Nat.Defs

/-!
# Proofs — MethodTable

The ids of loaded methods.  Methods are numbered in the order of loading (`MethodTable.Numbered`),
and an id has room for a number of thirty bits.  As long as the numbers have no more, ids are all
different and the table finds a method by its id (`Numbered.get?_id`).  The last few numbers of
thirty bits belong to the synthetic methods; a table that counts on gets there
(`nextId_eq_collection`).

**Identity** (`MethodTable.Identifies`).  A table that has not come so far tells its methods apart
by their ids, also when actions are put into the two low bits and taken out again
(`Numbered.identifies`).
-/

namespace TracedMachine

namespace MethodTable

/-- Every method has the id of its place in the table. -/
def Numbered (t : MethodTable) : Prop :=
  ∀ (n : Nat) (m : Method), t.methods[n]? = some m → m.id = .ofIndex (n.toUInt32 + 1)

/-- Loading methods puts them at the end of the table. -/
theorem methods_registerAll (t : MethodTable) (ms : List MethodDef) :
    (t.registerAll ms).2.methods = t.methods ++ (t.registerAll ms).1.toArray := by
  induction ms generalizing t with
  | nil => simp [registerAll]
  | cons m ms ih => simp [registerAll, ih, register]

/-- Loading gives methods an id and leaves them as they were defined. -/
theorem definitions_registerAll (t : MethodTable) (ms : List MethodDef) :
    (t.registerAll ms).1.map (·.toMethodDef) = ms := by
  induction ms generalizing t with
  | nil => rfl
  | cons m ms ih => exact congrArg (m :: ·) (ih (t.register m).2)

/-- It does not matter in how many goes methods are loaded. -/
theorem registerAll_append (t : MethodTable) (ms more : List MethodDef) :
    (t.registerAll (ms ++ more)).2 = ((t.registerAll ms).2.registerAll more).2 := by
  induction ms generalizing t with
  | nil => rfl
  | cons m ms ih => exact ih (t.register m).2

/-- In a table that was empty there are the methods that were loaded, and no others. -/
theorem toList_registerAll_empty (ms : List MethodDef) :
    (({} : MethodTable).registerAll ms).2.methods.toList =
      (({} : MethodTable).registerAll ms).1 := by
  rw [methods_registerAll, Array.toList_append, List.toList_toArray]
  rfl

theorem size_registerAll_empty (ms : List MethodDef) :
    (({} : MethodTable).registerAll ms).2.size = ms.length := by
  have hlength := congrArg List.length (definitions_registerAll {} ms)
  rw [List.length_map, ← toList_registerAll_empty, Array.length_toList] at hlength
  exact hlength

theorem numbered_empty : ({} : MethodTable).Numbered := fun _ _ h => nomatch h

theorem Numbered.register {t : MethodTable} (h : t.Numbered) (m : MethodDef) :
    (t.register m).2.Numbered := by
  intro n method hn
  simp only [MethodTable.register, Array.getElem?_push] at hn
  split at hn
  · next hsize =>
    cases hn
    rw [hsize]
    rfl
  · exact h n method hn

theorem Numbered.registerAll {t : MethodTable} (h : t.Numbered) (ms : List MethodDef) :
    (t.registerAll ms).2.Numbered := by
  induction ms generalizing t with
  | nil => exact h
  | cons m ms ih => exact ih (h.register m)

/-- The two low bits of an id are clear. -/
theorem Numbered.low_bits {t : MethodTable} (h : t.Numbered) {m : Method} (hm : m ∈ t.methods) :
    m.id.raw % 4 = 0 := by
  obtain ⟨n, hn⟩ := Array.mem_iff_getElem?.mp hm
  rw [MethodId.low_bits_iff, h n m hn]
  simp [MethodId.ofIndex]

theorem get?_eq_some {t : MethodTable} {id : MethodId} {m : Method} (h : t.get? id = some m) :
    m ∈ t.methods ∧ m.id = id := by
  unfold get? at h
  split at h
  · cases h
  · obtain ⟨hget, hid⟩ := Option.filter_eq_some_iff.mp h
    exact ⟨Array.mem_of_getElem? hget, by simpa using hid⟩

end MethodTable

/-! ### Numbers of thirty bits -/

theorem MethodId.toNat_ofIndex {n : Nat} (h : n + 1 < 2 ^ 30) :
    (ofIndex (n.toUInt32 + 1)).raw.toNat = 4 * (n + 1) := by
  simp [ofIndex]
  omega

namespace MethodTable

section

variable {t : MethodTable} (h : t.Numbered)
include h

/-- An id is four times the number of its method. -/
theorem Numbered.toNat_id {n : Nat} {m : Method} (hn : t.methods[n]? = some m)
    (hsmall : n + 1 < 2 ^ 30) : m.id.raw.toNat = 4 * (n + 1) := by
  rw [h n m hn, MethodId.toNat_ofIndex hsmall]

/-- **A method is found by its id**, if its number has thirty bits. -/
theorem Numbered.get?_id {n : Nat} {m : Method} (hn : t.methods[n]? = some m)
    (hsmall : n + 1 < 2 ^ 30) : t.get? m.id = some m := by
  have hfour : (4 : UInt32).toNat = 4 := rfl
  have hindex : m.id.index.toNat = n + 1 := by
    rw [MethodId.index, UInt32.toNat_div, hfour, h.toNat_id hn hsmall]
    omega
  simp only [get?, hindex, hn, Option.filter_some, decide_true, if_true]

theorem Numbered.ids_nodup (hsize : t.size < 2 ^ 30) : (t.methods.toList.map (·.id)).Nodup := by
  rw [List.Nodup, List.pairwise_map, List.pairwise_iff_getElem]
  intro i j hi hj hij hsame
  rw [Array.length_toList] at hi hj
  have hfirst := h.toNat_id (Array.getElem?_eq_getElem hi) (Nat.lt_of_le_of_lt hi hsize)
  have hsecond := h.toNat_id (Array.getElem?_eq_getElem hj) (Nat.lt_of_le_of_lt hj hsize)
  rw [Array.getElem_toList, Array.getElem_toList] at hsame
  rw [hsame, hsecond] at hfirst
  omega

/-- The ids of loaded methods lie between zero and the synthetic ids. -/
theorem Numbered.id_bounds (hsize : t.size < 2 ^ 30 - 4) {m : Method} (hm : m ∈ t.methods) :
    0 < m.id.raw.toNat ∧ m.id.raw.toNat < 0xfffffff0 := by
  obtain ⟨n, hn⟩ := Array.mem_iff_getElem?.mp hm
  have hlt : n < t.size := (Array.getElem?_eq_some_iff.mp hn).1
  rw [h.toNat_id hn (by omega)]
  omega

theorem Numbered.not_synthetic (hsize : t.size < 2 ^ 30 - 4) {m : Method} (hm : m ∈ t.methods) :
    m.id ≠ .collection ∧ m.id ≠ .classPreparation := by
  have hlt := (h.id_bounds hsize hm).2
  constructor
  · intro hid
    rw [hid] at hlt
    exact absurd hlt (by decide)
  · intro hid
    rw [hid] at hlt
    exact absurd hlt (by decide)

end

/-- The next id after the last one that is no synthetic method's. -/
theorem nextId_eq_collection {t : MethodTable} (hsize : t.size + 1 = 2 ^ 30 - 4) :
    t.nextId = .collection := by
  have hraw : t.nextId.raw.toNat = MethodId.collection.raw.toNat :=
    (MethodId.toNat_ofIndex (by omega)).trans (by rw [hsize]; rfl)
  exact congrArg MethodId.mk (UInt32.toNat_inj.mp hraw)

/-! ### Identity -/

/-- Methods are told apart by their ids. -/
structure Identifies (t : MethodTable) (methods : List Method) : Prop where
  distinct : (methods.map (·.id)).Nodup
  nonzero : ∀ m ∈ methods, m.id.raw ≠ 0
  low_bits : ∀ m ∈ methods, m.id.raw % 4 = 0
  not_synthetic : ∀ m ∈ methods, m.id ≠ .collection ∧ m.id ≠ .classPreparation
  /-- The table finds the method that has an id, and nothing if there is none. -/
  get?_iff : ∀ id m, t.get? id = some m ↔ m ∈ methods ∧ m.id = id
  /-- An id comes out of a word as it went in, whatever action goes with it. -/
  ofWord_word : ∀ m ∈ methods, ∀ a, MethodId.ofWord (m.id.word a) = m.id

/-- A table tells its methods apart, as long as it is short of the synthetic ids. -/
theorem Numbered.identifies {t : MethodTable} (h : t.Numbered) (hsize : t.size < 2 ^ 30 - 4) :
    t.Identifies t.methods.toList where
  distinct := h.ids_nodup (by omega)
  nonzero := by
    intro m hm hzero
    have hpos := (h.id_bounds hsize (Array.mem_toList_iff.mp hm)).1
    rw [hzero] at hpos
    exact absurd hpos (by decide)
  low_bits := fun m hm => h.low_bits (Array.mem_toList_iff.mp hm)
  not_synthetic := fun m hm => h.not_synthetic hsize (Array.mem_toList_iff.mp hm)
  get?_iff := by
    intro id m
    rw [Array.mem_toList_iff]
    refine ⟨get?_eq_some, ?_⟩
    rintro ⟨hm, rfl⟩
    obtain ⟨n, hn⟩ := Array.mem_iff_getElem?.mp hm
    have hlt : n < t.size := (Array.getElem?_eq_some_iff.mp hn).1
    exact h.get?_id hn (by omega)
  ofWord_word := by
    intro m hm a
    rw [MethodId.ofWord_word, MethodId.ofWord_raw (h.low_bits (Array.mem_toList_iff.mp hm))]

end MethodTable

end TracedMachine
