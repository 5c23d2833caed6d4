import TracedMachine.Proofs.Machine.Passes
import Mathlib.Data.List.Nodup

/-!
# Proofs — ClassTable — Linking

Classes are made when they are first asked for, array classes after the classes of their elements,
and modules remember what their numbers were resolved to.  Nothing ties a module's cache to the
table but the order in which both were filled.

A table is *linked* (`ClassTable.Linked`) if no descriptor has two classes, every class is
initialized, and an array class is described by a bracket and its element, whose class is there if
elements are references.  A table only grows, at its end (`findChars_spec`), so what was found once
is found for ever.

**Linking** (`Linker.linking_is_coherent`).  After any history of definitions, lookups and
resolutions on behalf of any number of modules, the table is linked, and what a module remembers is
what the table holds.  So it makes no difference to a lookup, and none to an array that is made,
that a cache answers and not the table (`Linker.Coherent`).

`LinkOp.perform` does one request; that it keeps the state coherent is `Linker.Sound.perform`.
-/

namespace TracedMachine

namespace ClassTable

/-! ### Tables -/

/-- **A linked table.** -/
structure Linked (t : ClassTable) : Prop where
  /-- No descriptor has two classes. -/
  distinct : (t.classes.map (·.descriptor)).Nodup
  initialized : ∀ c ∈ t.classes, c.initialized = true
  /-- An array class is described by a bracket and its element, and the class of the element is
  there if it needs one. -/
  arrays : ∀ c ∈ t.classes, ∀ element, c.kind = .array element →
    ∃ rest, c.descriptor = String.ofList ('[' :: rest) ∧
      ElementType.ofDescriptor? rest = some element ∧
      (element = .reference → (t.get? (String.ofList rest)).isSome)

theorem linked_empty : ({} : ClassTable).Linked where
  distinct := List.nodup_nil
  initialized := fun _ h => nomatch h
  arrays := fun _ h => nomatch h

variable {t u : ClassTable} {d : String} {c : Class}

theorem mem_of_get? (h : t.get? d = some c) : c ∈ t.classes := List.mem_of_find?_eq_some h

theorem descriptor_of_get? (h : t.get? d = some c) : c.descriptor = d := by
  simpa using List.find?_some h

/-- A class that is there stays there. -/
theorem get?_of_extends (hu : t.classes <+: u.classes) (h : t.get? d = some c) :
    u.get? d = some c := by
  obtain ⟨more, hmore⟩ := hu
  rw [get?, ← hmore, List.find?_append]
  rw [get?] at h
  rw [h]
  rfl

/-- In a linked table every class is found under its own descriptor. -/
theorem Linked.get?_descriptor (h : t.Linked) (hc : c ∈ t.classes) :
    t.get? c.descriptor = some c := by
  cases hfound : t.get? c.descriptor with
  | none =>
      have hnone := List.find?_eq_none.mp hfound c hc
      simp at hnone
  | some c' =>
      have hsame := List.inj_on_of_nodup_map h.distinct (mem_of_get? hfound) hc
        (descriptor_of_get? hfound)
      rw [hsame]

/-- Making a class that is there changes nothing; one that is not there is put at the end. -/
theorem prepare_cases (t : ClassTable) (d : String) (kind : ClassKind) :
    t.get? d = some (t.prepare d kind).value ∧ (t.prepare d kind).state = t ∨
      t.get? d = none ∧ (t.prepare d kind).value = ⟨d, kind, true⟩ ∧
        (t.prepare d kind).state = ⟨t.classes ++ [⟨d, kind, true⟩]⟩ := by
  unfold prepare
  cases h : t.get? d with
  | some c => exact .inl ⟨rfl, rfl⟩
  | none => exact .inr ⟨rfl, rfl, rfl⟩

theorem prepare_extends (t : ClassTable) (d : String) (kind : ClassKind) :
    t.classes <+: (t.prepare d kind).state.classes := by
  obtain ⟨-, hstate⟩ | ⟨-, -, hstate⟩ := t.prepare_cases d kind
  · simp only [hstate, List.prefix_refl]
  · rw [hstate]
    exact List.prefix_append _ _

/-- A class that was made is there. -/
theorem get?_prepare (t : ClassTable) (d : String) (kind : ClassKind) :
    (t.prepare d kind).state.get? d = some (t.prepare d kind).value := by
  obtain ⟨hthere, hstate⟩ | ⟨hnone, hvalue, hstate⟩ := t.prepare_cases d kind
  · rw [hstate, hthere]
  · rw [get?] at hnone
    rw [hstate, hvalue, get?, List.find?_append, hnone]
    simp

/-- Making a class keeps a table linked, if an array class has the element that it needs. -/
theorem Linked.prepare (h : t.Linked) {kind : ClassKind}
    (hkind : ∀ element, kind = .array element → ∃ rest, d = String.ofList ('[' :: rest) ∧
      ElementType.ofDescriptor? rest = some element ∧
      (element = .reference → (t.get? (String.ofList rest)).isSome)) :
    (t.prepare d kind).state.Linked := by
  obtain ⟨-, hstate⟩ | ⟨hnone, -, hstate⟩ := t.prepare_cases d kind
  · rwa [hstate]
  · have hgrows := t.prepare_extends d kind
    have hstays : ∀ d', (t.get? d').isSome → ((t.prepare d kind).state.get? d').isSome := by
      intro d' hd'
      obtain ⟨c, hc⟩ := Option.isSome_iff_exists.mp hd'
      exact Option.isSome_of_eq_some (get?_of_extends hgrows hc)
    have hmem : ∀ c, c ∈ (t.prepare d kind).state.classes ↔
        c ∈ t.classes ∨ c = ⟨d, kind, true⟩ := by
      intro c
      rw [hstate, List.mem_append, List.mem_singleton]
    refine ⟨?_, fun c hc => ?_, fun c hc element he => ?_⟩
    · have hfresh : ∀ c ∈ t.classes, c.descriptor ≠ d := by
        intro c hc
        simpa using List.find?_eq_none.mp hnone c hc
      rw [hstate, List.map_append]
      refine h.distinct.append (List.nodup_singleton d) fun d' hd' hlast => ?_
      obtain ⟨c, hc, rfl⟩ := List.mem_map.mp hd'
      exact hfresh c hc (List.mem_singleton.mp hlast)
    · rcases (hmem c).mp hc with hc | rfl
      · exact h.initialized c hc
      · rfl
    · rcases (hmem c).mp hc with hc | rfl
      · obtain ⟨rest, hd, helement, hthere⟩ := h.arrays c hc element he
        exact ⟨rest, hd, helement, fun href => hstays _ (hthere href)⟩
      · obtain ⟨rest, hd, helement, hthere⟩ := hkind element he
        exact ⟨rest, hd, helement, fun href => hstays _ (hthere href)⟩

/-- **A lookup** keeps a table linked, only adds to it, and finds what is in it afterwards. -/
theorem findChars_spec (t : ClassTable) (chars : List Char) :
    (t.Linked → (t.findChars chars).state.Linked) ∧
      t.classes <+: (t.findChars chars).state.classes ∧
      ∀ c, (t.findChars chars).value = .ok c →
        (t.findChars chars).state.get? (String.ofList chars) = some c := by
  fun_induction ClassTable.findChars t chars with
  | case1 chars descriptor c hthere =>
      refine ⟨id, List.prefix_refl _, fun c' hc' => ?_⟩
      cases hc'
      exact hthere
  | case2 | case6 =>
      refine ⟨id, List.prefix_refl _, fun c hc => ?_⟩
      cases hc
  | case3 rest element helement hprimitive descriptor hnone made =>
      refine ⟨fun h => ?_, t.prepare_extends _ _, fun c hc => ?_⟩
      · refine h.prepare fun element' he => ?_
        cases he
        refine ⟨rest, rfl, helement, fun href => ?_⟩
        rw [href] at hprimitive
        cases hprimitive
      · cases hc
        exact t.get?_prepare _ _
  | case4 rest element helement hprimitive found e he descriptor hnone ih =>
      refine ⟨ih.1, ih.2.1, fun c hc => ?_⟩
      cases hc
  | case5 rest element helement hprimitive found c hc descriptor hnone made ih =>
      obtain ⟨hlinked, hgrows, hfound⟩ := ih
      refine ⟨fun h => ?_, hgrows.trans (found.state.prepare_extends _ _), fun c' hc' => ?_⟩
      · refine (hlinked h).prepare fun element' he => ?_
        cases he
        exact ⟨rest, rfl, helement, fun _ => Option.isSome_of_eq_some (hfound c hc)⟩
      · cases hc'
        exact found.state.get?_prepare _ _

theorem Linked.find (h : t.Linked) (d : String) : (t.find d).state.Linked :=
  (t.findChars_spec d.toList).1 h

theorem find_extends (t : ClassTable) (d : String) : t.classes <+: (t.find d).state.classes :=
  (t.findChars_spec d.toList).2.1

theorem get?_find (h : (t.find d).value = .ok c) : (t.find d).state.get? d = some c := by
  have hfound := (t.findChars_spec d.toList).2.2 c h
  rwa [String.ofList_toList] at hfound

/-- A class that is there is found, and nothing else happens. -/
theorem find_of_get? (h : t.get? d = some c) :
    t.find d = { value := .ok c, state := t, events := [] } := by
  unfold find ClassTable.findChars
  simp only [String.ofList_toList, h]

theorem Linked.define (h : t.Linked) (d : String) (fields : Nat) :
    (t.define d fields).state.Linked := by
  unfold ClassTable.define
  split
  · exact h
  · exact h.prepare fun _ he => nomatch he

theorem define_extends (t : ClassTable) (d : String) (fields : Nat) :
    t.classes <+: (t.define d fields).state.classes := by
  unfold ClassTable.define
  split
  · exact List.prefix_refl _
  · exact t.prepare_extends _ _

end ClassTable

/-! ### Caches -/

namespace Store

variable {s : Store} {m m' : Module} {index : Nat} {d : String} {c : Class}

theorem resolveClass_cached (h : s.cached? m index = some c) :
    s.resolveClass m index = { value := .ok c, state := s, events := [] } := by
  simp only [resolveClass, h]

/-- The store after a number was looked up: a class that was found is remembered. -/
def learn (s : Store) (m : Module) (index : Nat)
    (found : Outcome ClassTable Event (Except Throwable Class)) : Store :=
  match found.value with
  | .error _ => { s with classes := found.state }
  | .ok c => { s with classes := found.state }.cacheClass m index c

/-- A number that nobody remembers is looked up. -/
theorem resolveClass_looked (h : s.cached? m index = none) (hd : m.classRefs[index]? = some d) :
    s.resolveClass m index =
      { value := (s.classes.find d).value, state := s.learn m index (s.classes.find d)
        events := (s.classes.find d).events } := by
  simp only [resolveClass, h, hd, learn]
  cases (s.classes.find d).value <;> rfl

theorem resolveClass_past (h : s.cached? m index = none) (hd : m.classRefs[index]? = none) :
    s.resolveClass m index =
      { value := .error (.verify (.classIndexOutOfRange index)), state := s, events := [] } := by
  simp only [resolveClass, h, hd]

/-- Resolving a number leaves the store as it is, or as a lookup leaves it. -/
theorem state_resolveClass (s : Store) (m : Module) (index : Nat) :
    (s.resolveClass m index).state = s ∨ ∃ d, m.classRefs[index]? = some d ∧
      (s.resolveClass m index).state = s.learn m index (s.classes.find d) := by
  cases hc : s.cached? m index with
  | some c => exact .inl (by rw [resolveClass_cached hc])
  | none =>
      cases hd : m.classRefs[index]? with
      | none => exact .inl (by rw [resolveClass_past hc hd])
      | some d => exact .inr ⟨d, rfl, by rw [resolveClass_looked hc hd]⟩

/-- The cache of a module holds only what the table holds for the module's own descriptors. -/
def Remembers (s : Store) (m : Module) : Prop :=
  ∃ cache, s.caches[m.cache]? = some cache ∧ cache.resolved.size = m.classRefs.size ∧
    ∀ index c, cache.get? index = some c →
      ∃ d, m.classRefs[index]? = some d ∧ s.classes.get? d = some c

namespace Remembers

theorem cached (h : s.Remembers m) (hc : s.cached? m index = some c) :
    ∃ d, m.classRefs[index]? = some d ∧ s.classes.get? d = some c := by
  obtain ⟨cache, hcache, -, hheld⟩ := h
  rw [cached?, hcache] at hc
  exact hheld index c hc

/-- A table that grows keeps what is remembered. -/
theorem grow (h : s.Remembers m) {t : ClassTable} (ht : s.classes.classes <+: t.classes) :
    { s with classes := t }.Remembers m := by
  obtain ⟨cache, hcache, hsize, hheld⟩ := h
  refine ⟨cache, hcache, hsize, fun index c hc => ?_⟩
  obtain ⟨d, hd, hget⟩ := hheld index c hc
  exact ⟨d, hd, ClassTable.get?_of_extends ht hget⟩

/-- What another module learns does not matter. -/
theorem cacheClass_other (h : s.Remembers m) (hm : m'.cache ≠ m.cache) :
    (s.cacheClass m' index c).Remembers m := by
  obtain ⟨cache, hcache, hsize, hheld⟩ := h
  refine ⟨cache, ?_, hsize, hheld⟩
  rw [cacheClass, Array.getElem?_modify, if_neg hm, hcache]

/-- What the table holds may be remembered, and then it is. -/
theorem cacheClass_self (h : s.Remembers m) (hd : m.classRefs[index]? = some d)
    (hc : s.classes.get? d = some c) :
    (s.cacheClass m index c).Remembers m ∧ (s.cacheClass m index c).cached? m index = some c := by
  obtain ⟨cache, hcache, hsize, hheld⟩ := h
  obtain ⟨hlt, -⟩ := Array.getElem?_eq_some_iff.mp hd
  have hset : (s.cacheClass m index c).caches[m.cache]? = some (cache.set index c) := by
    rw [cacheClass, Array.getElem?_modify, if_pos rfl, hcache]
    rfl
  have hself : (cache.set index c).get? index = some c := by
    rw [ClassCache.get?, ClassCache.set, Array.getElem?_setIfInBounds_self_of_lt (hsize ▸ hlt)]
    rfl
  refine ⟨⟨_, hset, ?_, fun index' c' hc' => ?_⟩, ?_⟩
  · rw [ClassCache.set, Array.size_setIfInBounds, hsize]
  · by_cases hindex : index = index'
    · cases hindex
      rw [hself] at hc'
      cases hc'
      exact ⟨d, hd, hc⟩
    · rw [ClassCache.get?, ClassCache.set, Array.getElem?_setIfInBounds_ne hindex] at hc'
      exact hheld index' c' hc'
  · rw [cached?, hset]
    exact hself

end Remembers

/-- The heap has no part in resolving classes. -/
theorem heap_resolveClass (s : Store) (m : Module) (index : Nat) :
    (s.resolveClass m index).state.heap = s.heap := by
  unfold resolveClass
  split
  · rfl
  · split
    · rfl
    · dsimp only
      split <;> rfl

/-- The store as it would be if no module remembered anything. -/
def forget (s : Store) : Store :=
  { s with caches := s.caches.map fun cache => .empty cache.resolved.size }

theorem cached?_forget (s : Store) (m : Module) (index : Nat) :
    s.forget.cached? m index = none := by
  rw [cached?, forget, Array.getElem?_map]
  cases s.caches[m.cache]? with
  | none => rfl
  | some cache =>
      simp only [Option.map_some, Option.bind_some, ClassCache.get?, ClassCache.empty,
        Array.getElem?_replicate]
      split <;> rfl

/-- **A cache answers as the table would.** -/
theorem Remembers.resolveClass_eq (h : s.Remembers m) (hd : m.classRefs[index]? = some d) :
    let resolved := s.resolveClass m index
    let found := s.classes.find d
    resolved.value = found.value ∧ resolved.state.classes = found.state ∧
      resolved.events = found.events ∧
      ∀ c, found.value = .ok c → resolved.state.cached? m index = some c := by
  cases hc : s.cached? m index with
  | some c =>
      obtain ⟨d', hd', hget⟩ := h.cached hc
      rw [hd] at hd'
      cases hd'
      rw [resolveClass_cached hc, ClassTable.find_of_get? hget]
      refine ⟨rfl, rfl, rfl, fun c' hc' => ?_⟩
      cases hc'
      exact hc
  | none =>
      rw [resolveClass_looked hc hd]
      refine ⟨rfl, ?_, rfl, fun c hvalue => ?_⟩
      · unfold learn
        cases (s.classes.find d).value <;> rfl
      · simp only [learn, hvalue]
        exact ((h.grow (s.classes.find_extends d)).cacheClass_self hd
          (ClassTable.get?_find hvalue)).2

/-- Two stores with the same heap and classes, whatever modules remember. -/
def SameButCaches (s u : Store) : Prop := s.heap = u.heap ∧ s.classes = u.classes

/-- A number is resolved as it would be if no module remembered anything. -/
theorem Remembers.resolveClass_forget (h : s.Remembers m) (index : Nat) :
    let resolved := s.resolveClass m index
    let anew := s.forget.resolveClass m index
    resolved.value = anew.value ∧ resolved.events = anew.events ∧
      resolved.state.SameButCaches anew.state := by
  have hheap :
      (s.resolveClass m index).state.heap = (s.forget.resolveClass m index).state.heap := by
    rw [heap_resolveClass, heap_resolveClass]
    rfl
  cases hd : m.classRefs[index]? with
  | none =>
      have hc : s.cached? m index = none := by
        cases hc : s.cached? m index with
        | none => rfl
        | some c =>
            obtain ⟨d, hd', -⟩ := h.cached hc
            rw [hd] at hd'
            cases hd'
      refine ⟨?_, ?_, hheap, ?_⟩ <;>
        rw [resolveClass_past hc hd, resolveClass_past (s.cached?_forget m index) hd]
      rfl
  | some d =>
      obtain ⟨hvalue, hclasses, hevents, -⟩ := h.resolveClass_eq hd
      have hanew := resolveClass_looked (s.cached?_forget m index) hd
      refine ⟨?_, ?_, hheap, ?_⟩
      · rw [hvalue, hanew]
        rfl
      · rw [hevents, hanew]
        rfl
      · rw [hclasses, hanew, learn]
        show (s.classes.find d).state = _
        cases hfound : (s.forget.classes.find d).value <;> rfl

/-- An array is made as it would be if no module remembered anything. -/
theorem newArray_forget {f : Frame} (h : s.Remembers f.home) (dst : UInt8) (length : Int32)
    (classIndex : UInt16) :
    let made := s.newArray f dst length classIndex
    let anew := s.forget.newArray f dst length classIndex
    made.value = anew.value ∧ made.events = anew.events ∧ made.state.SameButCaches anew.state := by
  obtain ⟨hvalue, hevents, hheap, hclasses⟩ := h.resolveClass_forget classIndex.toNat
  unfold newArray
  dsimp only
  by_cases hneg : length.toInt < 0
  · rw [if_pos hneg, if_pos hneg]
    exact ⟨rfl, rfl, rfl, rfl⟩
  · rw [if_neg hneg, if_neg hneg, ← hvalue, ← hevents, ← hheap]
    cases (s.resolveClass f.home classIndex.toNat).value with
    | error e => exact ⟨rfl, rfl, hheap, hclasses⟩
    | ok c => exact ⟨rfl, rfl, rfl, hclasses⟩

end Store

/-- An instruction makes an array as it would if no module remembered anything. -/
theorem Machine.newArray_forget {s : Store} {f : Frame} (h : s.Remembers f.home) (stack : Stack)
    (dst : UInt8) (length : Int32) (classIndex : UInt16) :
    let made := Machine.newArray ⟨stack, s⟩ f dst length classIndex
    let anew := Machine.newArray ⟨stack, s.forget⟩ f dst length classIndex
    made.value = anew.value ∧ made.events = anew.events ∧
      made.state.stack = anew.state.stack ∧ made.state.store.SameButCaches anew.state.store := by
  obtain ⟨hvalue, hevents, hheap, hclasses⟩ := Store.newArray_forget h dst length classIndex
  dsimp only
  rw [newArray_eq, newArray_eq]
  dsimp only
  rw [hvalue, hevents]
  unfold receive
  rw [hvalue]
  cases (s.forget.newArray f dst length classIndex).value with
  | error e => exact ⟨rfl, rfl, rfl, hheap, hclasses⟩
  | ok w => exact ⟨rfl, rfl, rfl, hheap, hclasses⟩

/-! ### Histories -/

/-- Classes, and modules that refer to them. -/
structure Linker where
  store : Store
  modules : List Module := []

/-- Something that is asked of the classes. -/
inductive LinkOp where
  /-- A module with descriptors to resolve is loaded. -/
  | load (classRefs : List String) (methods : Array Method)
  | define (descriptor : String) (fields : Nat)
  | find (descriptor : String)
  /-- A number of a module is resolved, the module given by its place. -/
  | resolve (place index : Nat)

/-- Does what is asked. -/
def LinkOp.perform (l : Linker) : LinkOp → Linker
  | load classRefs methods =>
    let caches := l.store.caches.push (.empty classRefs.length)
    { store := { l.store with caches }
      modules :=
        l.modules ++ [{ cache := l.store.caches.size, classRefs := classRefs.toArray, methods }] }
  | define descriptor fields =>
    { l with store := { l.store with classes := (l.store.classes.define descriptor fields).state } }
  | find descriptor =>
    { l with store := { l.store with classes := (l.store.classes.find descriptor).state } }
  | resolve place index =>
    match l.modules[place]? with
    | none => l
    | some m => { l with store := (l.store.resolveClass m index).state }

namespace Linker

/-- The classes and modules after a history. -/
def after (l : Linker) (ops : List LinkOp) : Linker := ops.foldl LinkOp.perform l

/-- What every request keeps. -/
structure Sound (l : Linker) : Prop where
  table : l.store.classes.Linked
  remembers : ∀ m ∈ l.modules, l.store.Remembers m
  /-- No two modules share a cache. -/
  own : ∀ m ∈ l.modules, ∀ m' ∈ l.modules, m.cache = m'.cache → m = m'

theorem sound_new (heap : Heap) : Sound { store := { heap } } where
  table := ClassTable.linked_empty
  remembers := fun _ h => nomatch h
  own := fun _ h => nomatch h

namespace Sound

variable {l : Linker}

theorem load (h : l.Sound) (classRefs : List String) (methods : Array Method) :
    (LinkOp.perform l (.load classRefs methods)).Sound := by
  -- the caches of the other modules come before the new one
  have hlt : ∀ m ∈ l.modules, m.cache < l.store.caches.size := by
    intro m hm
    obtain ⟨cache, hcache, -⟩ := h.remembers m hm
    exact (Array.getElem?_eq_some_iff.mp hcache).1
  have hmem : ∀ m, m ∈ (LinkOp.perform l (.load classRefs methods)).modules → m ∈ l.modules ∨
      m = { cache := l.store.caches.size, classRefs := classRefs.toArray, methods } := by
    intro m hm
    rwa [LinkOp.perform, List.mem_append, List.mem_singleton] at hm
  refine ⟨h.table, fun m hm => ?_, fun m hm m' hm' hsame => ?_⟩
  · rcases hmem m hm with hm | rfl
    · obtain ⟨cache, hcache, hsize, hheld⟩ := h.remembers m hm
      refine ⟨cache, ?_, hsize, hheld⟩
      exact (Array.getElem?_push_lt (hlt m hm)).trans
        ((Array.getElem?_eq_getElem (hlt m hm)).symm.trans hcache)
    · refine ⟨.empty classRefs.length, Array.getElem?_push_size, ?_, fun index c hc => ?_⟩
      · simp [ClassCache.empty]
      · simp only [ClassCache.get?, ClassCache.empty, Array.getElem?_replicate] at hc
        split at hc <;> cases hc
  · rcases hmem m hm with hm | rfl <;> rcases hmem m' hm' with hm' | rfl
    · exact h.own m hm m' hm' hsame
    · exact absurd hsame (Nat.ne_of_lt (hlt m hm))
    · exact absurd hsame.symm (Nat.ne_of_lt (hlt m' hm'))
    · rfl

/-- A table that grows and stays linked keeps a linker sound. -/
theorem grow (h : l.Sound) {t : ClassTable} (ht : t.Linked)
    (hgrows : l.store.classes.classes <+: t.classes) :
    Sound { l with store := { l.store with classes := t } } :=
  ⟨ht, fun m hm => (h.remembers m hm).grow hgrows, h.own⟩

theorem resolve (h : l.Sound) {m : Module} (hm : m ∈ l.modules) (index : Nat) :
    Sound { l with store := (l.store.resolveClass m index).state } := by
  obtain hsame | ⟨d, hd, hlearnt⟩ := l.store.state_resolveClass m index
  · rw [hsame]
    exact h
  · have hgrown := h.grow (h.table.find d) (l.store.classes.find_extends d)
    rw [hlearnt]
    unfold Store.learn
    cases hvalue : (l.store.classes.find d).value with
    | error e => exact hgrown
    | ok c =>
        refine ⟨hgrown.table, fun m' hm' => ?_, h.own⟩
        by_cases hcache : m.cache = m'.cache
        · cases h.own m hm m' hm' hcache
          exact ((hgrown.remembers m hm).cacheClass_self hd (ClassTable.get?_find hvalue)).1
        · exact (hgrown.remembers m' hm').cacheClass_other hcache

/-- A request keeps a linker sound. -/
theorem perform (h : l.Sound) (op : LinkOp) : (op.perform l).Sound := by
  cases op with
  | load classRefs methods => exact h.load classRefs methods
  | define descriptor fields =>
      exact h.grow (h.table.define descriptor fields)
        (l.store.classes.define_extends descriptor fields)
  | find descriptor =>
      exact h.grow (h.table.find descriptor) (l.store.classes.find_extends descriptor)
  | resolve place index =>
      cases hm : l.modules[place]? with
      | none =>
          simp only [LinkOp.perform, hm]
          exact h
      | some m =>
          simp only [LinkOp.perform, hm]
          exact h.resolve (List.mem_of_getElem? hm) index

theorem after (h : l.Sound) (ops : List LinkOp) : (l.after ops).Sound := by
  induction ops generalizing l with
  | nil => exact h
  | cons op ops ih => exact ih (h.perform op)

end Sound

/-- A request only adds to the table. -/
theorem perform_extends (l : Linker) (op : LinkOp) :
    l.store.classes.classes <+: (op.perform l).store.classes.classes := by
  cases op with
  | load classRefs methods => exact List.prefix_refl _
  | define descriptor fields => exact l.store.classes.define_extends descriptor fields
  | find descriptor => exact l.store.classes.find_extends descriptor
  | resolve place index =>
      cases hm : l.modules[place]? with
      | none =>
          simp only [LinkOp.perform, hm]
          exact List.prefix_refl _
      | some m =>
          simp only [LinkOp.perform, hm]
          obtain hsame | ⟨d, -, hlearnt⟩ := l.store.state_resolveClass m index
          · simp only [hsame, List.prefix_refl]
          · rw [hlearnt]
            unfold Store.learn
            cases (l.store.classes.find d).value <;> exact l.store.classes.find_extends d

theorem after_extends (l : Linker) (ops : List LinkOp) :
    l.store.classes.classes <+: (l.after ops).store.classes.classes := by
  induction ops generalizing l with
  | nil => exact List.prefix_refl _
  | cons op ops ih => exact (l.perform_extends op).trans (ih (op.perform l))

/-- **Coherence.**  What holds of classes and caches together. -/
structure Coherent (l : Linker) : Prop where
  /-- A class is found under its own descriptor, and under no other. -/
  described : ∀ d c,
    l.store.classes.get? d = some c ↔ c ∈ l.store.classes.classes ∧ c.descriptor = d
  initialized : ∀ d c, l.store.classes.get? d = some c → c.initialized = true
  /-- A class that is there stays as it is, whatever is asked later. -/
  kept : ∀ d c, l.store.classes.get? d = some c → ∀ more,
    (l.after more).store.classes.get? d = some c
  /-- An array class is described by a bracket and its element; if elements are references, the
  class of an element is there. -/
  arrays : ∀ d c element, l.store.classes.get? d = some c → c.kind = .array element →
    ∃ rest, d = String.ofList ('[' :: rest) ∧ ElementType.ofDescriptor? rest = some element ∧
      (element = .reference → (l.store.classes.get? (String.ofList rest)).isSome)
  /-- What a module remembers is what the table holds, and what a lookup finds. -/
  cached : ∀ m ∈ l.modules, ∀ index c, l.store.cached? m index = some c →
    ∃ d, m.classRefs[index]? = some d ∧ l.store.classes.get? d = some c ∧
      l.store.classes.find d = { value := .ok c, state := l.store.classes, events := [] }
  /-- Resolving a number comes to what a lookup comes to, and is remembered if it succeeds. -/
  resolved : ∀ m ∈ l.modules, ∀ index d, m.classRefs[index]? = some d →
    let resolved := l.store.resolveClass m index
    let found := l.store.classes.find d
    resolved.value = found.value ∧ resolved.state.classes = found.state ∧
      resolved.events = found.events ∧
      ∀ c, found.value = .ok c → resolved.state.cached? m index = some c
  /-- An array is made as it would be if no module remembered anything. -/
  arrayMade : ∀ f : Frame, f.home ∈ l.modules → ∀ stack dst length classIndex,
    let made := Machine.newArray ⟨stack, l.store⟩ f dst length classIndex
    let anew := Machine.newArray ⟨stack, l.store.forget⟩ f dst length classIndex
    made.value = anew.value ∧ made.events = anew.events ∧
      made.state.stack = anew.state.stack ∧ made.state.store.SameButCaches anew.state.store

theorem Sound.coherent {l : Linker} (h : l.Sound) : l.Coherent where
  described := fun d c => by
    constructor
    · exact fun hc => ⟨ClassTable.mem_of_get? hc, ClassTable.descriptor_of_get? hc⟩
    · rintro ⟨hc, rfl⟩
      exact h.table.get?_descriptor hc
  initialized := fun d c hc => h.table.initialized c (ClassTable.mem_of_get? hc)
  kept := fun d c hc more => ClassTable.get?_of_extends (l.after_extends more) hc
  arrays := fun d c element hc hkind => by
    obtain ⟨rest, hd, helement, hthere⟩ :=
      h.table.arrays c (ClassTable.mem_of_get? hc) element hkind
    exact ⟨rest, (ClassTable.descriptor_of_get? hc).symm.trans hd, helement, hthere⟩
  cached := fun m hm index c hc => by
    obtain ⟨d, hd, hget⟩ := (h.remembers m hm).cached hc
    exact ⟨d, hd, hget, ClassTable.find_of_get? hget⟩
  resolved := fun m hm index d hd => (h.remembers m hm).resolveClass_eq hd
  arrayMade := fun f hf stack dst length classIndex =>
    Machine.newArray_forget (h.remembers f.home hf) stack dst length classIndex

/-- **Linking is coherent** after every history. -/
theorem linking_is_coherent (heap : Heap) (ops : List LinkOp) :
    (after { store := { heap } } ops).Coherent :=
  ((sound_new heap).after ops).coherent

end Linker

end TracedMachine
