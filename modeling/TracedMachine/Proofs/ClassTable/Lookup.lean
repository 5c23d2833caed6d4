import TracedMachine.Proofs.ClassTable.Linking

/-!
# Proofs — ClassTable — Lookup

What a lookup finds, what it makes, and what it leaves when it fails.

Taking brackets off a descriptor gives the array descriptors inside it (`layers`).  A lookup goes
inward through them until it comes to a class that is there, or to an element that needs none, and
makes the classes on its way back.  So what it makes are the layers outside the outermost one that
is there (`absent`), the innermost first.  Layers further in are left out even if there is no class
for them: a class that was defined by hand may have an array's descriptor, and nothing is asked
about its elements.

**Lookup** (`Linker.lookup_is_atomic`).  A lookup succeeds if the class is there or is an array
class whose element is primitive or can be looked up.  It then makes the absent layers and nothing
else, one preparation for each.  If it fails, it fails before anything is made: table, events and
caches are as they were, and the message names what is missing (`Linker.LooksUp`).
-/

namespace TracedMachine

namespace ClassTable

/-- The array descriptors among a descriptor and what is left of it without its first brackets, the
outermost first. -/
def layers : List Char → List (List Char)
  | '[' :: rest => ('[' :: rest) :: layers rest
  | _ => []

/-- The array descriptors outside the outermost one that has a class, the innermost first. -/
def absent (t : ClassTable) (chars : List Char) : List (List Char) :=
  ((layers chars).takeWhile fun d => (t.get? (String.ofList d)).isNone).reverse

/-- What is left of a descriptor without any of its first brackets. -/
def innermost (chars : List Char) : List Char := chars.dropWhile (· = '[')

/-- A bracket, and a well-formed descriptor after it. -/
def DescribesArray (chars : List Char) : Prop :=
  ∃ rest, chars = '[' :: rest ∧ (ElementType.ofDescriptor? rest).isSome

/-- The class is the array class that its descriptor describes. -/
def IsArrayClass (c : Class) : Prop :=
  ∃ rest element, c.descriptor = String.ofList ('[' :: rest) ∧
    ElementType.ofDescriptor? rest = some element ∧ c.kind = .array element ∧ c.initialized = true

/-- What is reported of a class that is made. -/
def preparation (chars : List Char) : List Event :=
  [.passBegan .classPreparation, .notice (.preparing (String.ofList chars)),
    .passEnded .classPreparation]

variable {t : ClassTable} {chars rest : List Char} {c : Class}

/-! ### Layers -/

theorem length_of_mem_layers {d : List Char} (h : d ∈ layers chars) : d.length ≤ chars.length := by
  fun_induction layers chars with
  | case1 rest ih =>
      rcases List.mem_cons.mp h with rfl | h
      · exact Nat.le_refl _
      · exact Nat.le_succ_of_le (ih h)
  | case2 => cases h

/-- Around a primitive type there is no layer. -/
theorem layers_primitive {element : ElementType} (h : ElementType.ofDescriptor? rest = some element)
    (hprimitive : element.isPrimitive = true) : layers rest = [] := by
  unfold layers
  split
  · next inner =>
    rw [ElementType.ofDescriptor?, Option.map_eq_some_iff] at h
    obtain ⟨_, -, rfl⟩ := h
    cases hprimitive
  · rfl

theorem absent_of_get? (h : t.get? (String.ofList chars) = some c) : t.absent chars = [] := by
  unfold absent layers
  split
  · rw [List.takeWhile_cons, h]
    rfl
  · rfl

theorem absent_cons (h : t.get? (String.ofList ('[' :: rest)) = none) :
    t.absent ('[' :: rest) = t.absent rest ++ ['[' :: rest] := by
  rw [absent, layers, List.takeWhile_cons, h]
  exact List.reverse_cons

theorem mem_layers_of_mem_absent {d : List Char} (h : d ∈ t.absent chars) : d ∈ layers chars :=
  (List.takeWhile_sublist _).mem (List.mem_reverse.mp h)

/-- What is inside a descriptor is shorter than the descriptor. -/
theorem not_mem_absent_inside : '[' :: rest ∉ t.absent rest := by
  intro h
  have hlength := length_of_mem_layers (mem_layers_of_mem_absent h)
  exact Nat.not_succ_le_self _ hlength

/-! ### What is made -/

theorem prepare_absent {d : String} (h : t.get? d = none) (kind : ClassKind) :
    t.prepare d kind =
      { value := ⟨d, kind, true⟩, state := ⟨t.classes ++ [⟨d, kind, true⟩]⟩
        events := [.passBegan .classPreparation, .notice (.preparing d),
          .passEnded .classPreparation] } := by
  simp only [prepare, h]

/-- Classes with other descriptors do not matter to a lookup in the table. -/
theorem get?_append_of_not_mem {d : String} {added : List Class} (h : t.get? d = none)
    (hadded : d ∉ added.map (·.descriptor)) : get? ⟨t.classes ++ added⟩ d = none := by
  rw [get?] at h ⊢
  rw [List.find?_append, h, Option.none_or, List.find?_eq_none]
  intro c hc hd
  exact hadded (List.mem_map.mpr ⟨c, hc, of_decide_eq_true hd⟩)

/-- The classes that a lookup adds to a table, for these descriptors in this order. -/
structure Adds (t : ClassTable) (made : List (List Char)) (u : ClassTable) (es : List Event) :
    Prop where
  classes : ∃ added, u.classes = t.classes ++ added ∧
    added.map (·.descriptor) = made.map String.ofList ∧ ∀ c ∈ added, IsArrayClass c
  events : es = made.flatMap preparation

/-- Nothing is added. -/
theorem Adds.nothing (t : ClassTable) : t.Adds [] t [] :=
  ⟨⟨[], (List.append_nil _).symm, rfl, List.forall_mem_nil _⟩, rfl⟩

/-- One class more is made, after those inside it. -/
theorem Adds.prepare {u : ClassTable} {made : List (List Char)} {es : List Event}
    {element : ElementType} (h : t.Adds made u es)
    (helement : ElementType.ofDescriptor? rest = some element)
    (hnone : t.get? (String.ofList ('[' :: rest)) = none) (hmade : '[' :: rest ∉ made) :
    let last := u.prepare (String.ofList ('[' :: rest)) (.array element)
    t.Adds (made ++ ['[' :: rest]) last.state (es ++ last.events) := by
  intro last
  obtain ⟨⟨added, hclasses, hdescriptors, harrays⟩, hevents⟩ := h
  have hfresh : u.get? (String.ofList ('[' :: rest)) = .none := by
    have hadded : String.ofList ('[' :: rest) ∉ added.map (·.descriptor) := by
      rw [hdescriptors]
      intro hmem
      obtain ⟨d, hd, hsame⟩ := List.mem_map.mp hmem
      exact hmade (String.ofList_injective hsame ▸ hd)
    have hu : u = ⟨t.classes ++ added⟩ := congrArg ClassTable.mk hclasses
    rw [hu]
    exact get?_append_of_not_mem hnone hadded
  have hlast := prepare_absent hfresh (.array element)
  let new : Class := ⟨String.ofList ('[' :: rest), .array element, true⟩
  refine ⟨⟨added ++ [new], ?_, ?_, fun c hc => ?_⟩, ?_⟩
  · show (u.prepare _ _).state.classes = _
    rw [hlast, hclasses, List.append_assoc]
  · rw [List.map_append, List.map_append, hdescriptors]
    rfl
  · rcases List.mem_append.mp hc with hc | hc
    · exact harrays c hc
    · rw [List.mem_singleton.mp hc]
      exact ⟨rest, element, rfl, helement, rfl, rfl⟩
  · show es ++ (u.prepare _ _).events = _
    rw [hlast, hevents, List.flatMap_append]
    rfl

/-! ### What a lookup comes to -/

/-- **A lookup that succeeds makes what is absent.** -/
theorem findChars_adds (t : ClassTable) (chars : List Char) :
    ∀ c, (t.findChars chars).value = .ok c →
      t.Adds (t.absent chars) (t.findChars chars).state (t.findChars chars).events := by
  fun_induction ClassTable.findChars t chars with
  | case1 chars descriptor c hthere =>
      intro _ _
      rw [absent_of_get? hthere]
      exact .nothing t
  | case2 | case4 | case6 =>
      intro c h
      cases h
  | case3 rest element helement hprimitive descriptor hnone made =>
      intro _ _
      have hinside : t.absent rest = [] := by
        rw [absent, layers_primitive helement hprimitive]
        rfl
      rw [absent_cons hnone, hinside]
      exact (Adds.nothing t).prepare helement hnone List.not_mem_nil
  | case5 rest element helement hprimitive found c hc descriptor hnone made ih =>
      intro _ _
      rw [absent_cons hnone]
      exact (ih c hc).prepare helement hnone not_mem_absent_inside

/-- **When a lookup succeeds.** -/
theorem findChars_ok_iff :
    (∃ c, (t.findChars chars).value = .ok c) ↔
      (t.get? (String.ofList chars)).isSome ∨ ∃ rest element, chars = '[' :: rest ∧
        ElementType.ofDescriptor? rest = some element ∧
        (element.isPrimitive = true ∨ ∃ c, (t.findChars rest).value = .ok c) := by
  have hfails : ∀ e : Throwable, ¬ ∃ c : Class, Except.error e = Except.ok c := by
    rintro e ⟨c, hc⟩
    cases hc
  fun_cases ClassTable.findChars t chars with
  | case1 _ descriptor c hthere =>
      exact iff_of_true ⟨c, rfl⟩ (.inl (Option.isSome_of_eq_some hthere))
  | case2 rest helement descriptor hnone =>
      refine iff_of_false (hfails _) ?_
      rintro (hthere | ⟨rest', element, hchars, helement', -⟩)
      · rw [hnone] at hthere
        cases hthere
      · cases hchars
        rw [helement] at helement'
        cases helement'
  | case3 rest element helement hprimitive descriptor hnone made =>
      exact iff_of_true ⟨_, rfl⟩ (.inr ⟨rest, element, rfl, helement, .inl hprimitive⟩)
  | case4 rest element helement hprimitive found e he descriptor hnone =>
      refine iff_of_false (hfails _) ?_
      rintro (hthere | ⟨rest', element', hchars, helement', hprimitive' | ⟨c, hc⟩⟩)
      · rw [hnone] at hthere
        cases hthere
      · cases hchars
        cases helement.symm.trans helement'
        exact hprimitive hprimitive'
      · cases hchars
        cases he.symm.trans hc
  | case5 rest element helement hprimitive found c hc descriptor hnone made =>
      exact iff_of_true ⟨_, rfl⟩ (.inr ⟨rest, element, rfl, helement, .inr ⟨c, hc⟩⟩)
  | case6 _ descriptor hnone hother =>
      refine iff_of_false (hfails _) ?_
      rintro (hthere | ⟨rest, element, hchars, -, -⟩)
      · rw [hnone] at hthere
        cases hthere
      · exact hother rest hchars

/-- What a failed lookup says is missing: the descriptor, if it describes no array, and otherwise
the class of the innermost elements. -/
structure Misses (t : ClassTable) (chars : List Char) (missing : String) : Prop where
  undefined : t.get? missing = none
  whole : ¬ DescribesArray chars → missing = String.ofList chars
  element : DescribesArray chars → missing = String.ofList (innermost chars) ∧
    ElementType.ofDescriptor? (innermost chars) = some .reference

/-- A well-formed descriptor that describes no array has no bracket to take off. -/
theorem innermost_of_not_describesArray {element : ElementType}
    (h : ElementType.ofDescriptor? rest = some element) (harray : ¬ DescribesArray rest) :
    innermost rest = rest := by
  cases rest with
  | nil => rfl
  | cons first inner =>
      by_cases hfirst : first = '['
      · subst hfirst
        rw [ElementType.ofDescriptor?, Option.map_eq_some_iff] at h
        obtain ⟨_, hinner, -⟩ := h
        exact absurd ⟨inner, rfl, Option.isSome_of_eq_some hinner⟩ harray
      · rw [innermost, List.dropWhile_cons, decide_eq_false hfirst]
        rfl

/-- **A lookup that fails changes nothing**, and names what is missing. -/
theorem findChars_fails (t : ClassTable) (chars : List Char) :
    ∀ e, (t.findChars chars).value = .error e →
      (t.findChars chars).state = t ∧ (t.findChars chars).events = [] ∧
        ∃ missing, e = .noClass missing ∧ t.Misses chars missing := by
  fun_induction ClassTable.findChars t chars with
  | case1 | case3 | case5 =>
      intro e h
      cases h
  | case2 rest helement descriptor hnone =>
      intro e h
      cases h
      refine ⟨rfl, rfl, _, rfl, hnone, fun _ => rfl, ?_⟩
      rintro ⟨rest', hchars, hsome⟩
      cases hchars
      rw [helement] at hsome
      cases hsome
  | case4 rest element helement hprimitive found e he descriptor hnone ih =>
      intro _ h
      cases h
      obtain ⟨hstate, hevents, missing, hthrown, hundefined, hwhole, hinner⟩ := ih e he
      refine ⟨hstate, hevents, missing, hthrown, hundefined, fun hnot => ?_, fun _ => ?_⟩
      · exact absurd ⟨rest, rfl, Option.isSome_of_eq_some helement⟩ hnot
      · have hsame : innermost ('[' :: rest) = innermost rest := rfl
        rw [hsame]
        by_cases harray : DescribesArray rest
        · exact hinner harray
        · -- the elements are objects of a class, and it is this class that is missing
          have hreference : element = .reference := by
            simpa [ElementType.isPrimitive] using hprimitive
          rw [innermost_of_not_describesArray helement harray, helement, hreference]
          exact ⟨hwhole harray, rfl⟩
  | case6 chars descriptor hnone hother =>
      intro e h
      cases h
      refine ⟨rfl, rfl, _, rfl, hnone, fun _ => rfl, ?_⟩
      rintro ⟨rest, hchars, -⟩
      exact absurd hchars (hother rest)

end ClassTable

/-! ### Histories -/

namespace Linker

/-- **What a lookup comes to.** -/
structure LooksUp (l : Linker) (d : String) : Prop where
  /-- It succeeds if the class is there, or is an array class whose elements are primitive or have
  a class that can be looked up. -/
  succeeds_iff : (∃ c, (l.store.classes.find d).value = .ok c) ↔
    (l.store.classes.get? d).isSome ∨ ∃ inside element, d.toList = '[' :: inside.toList ∧
      ElementType.ofDescriptor? inside.toList = some element ∧
      (element.isPrimitive = true ∨ ∃ c, (l.store.classes.find inside).value = .ok c)
  /-- It then finds the class in a table that has grown by the absent array classes, each made
  once, and in which all else is as it was. -/
  found : ∀ c, (l.store.classes.find d).value = .ok c →
    let out := l.store.classes.find d
    l.store.classes.Adds (l.store.classes.absent d.toList) out.state out.events ∧
      out.state.get? d = some c ∧
      ∀ d' c', l.store.classes.get? d' = some c' → out.state.get? d' = some c'
  /-- If it fails, nothing has changed, and the message is what is missing. -/
  failed : ∀ e, (l.store.classes.find d).value = .error e →
    let out := l.store.classes.find d
    out.state = l.store.classes ∧ out.events = [] ∧ e.kind = .noClassDefFound ∧
      ∃ missing, e.message = some missing ∧ l.store.classes.Misses d.toList missing
  /-- A number whose class cannot be found stays unresolved. -/
  unresolved : ∀ m ∈ l.modules, ∀ index, m.classRefs[index]? = some d →
    ∀ e, (l.store.classes.find d).value = .error e →
      l.store.resolveClass m index = { value := .error e, state := l.store, events := [] } ∧
        l.store.cached? m index = none

theorem Sound.looksUp {l : Linker} (h : l.Sound) (d : String) : l.LooksUp d where
  succeeds_iff := by
    refine ClassTable.findChars_ok_iff.trans ?_
    rw [String.ofList_toList]
    refine or_congr_right ⟨?_, ?_⟩
    · rintro ⟨rest, element, hd, helement, hinside⟩
      refine ⟨String.ofList rest, element, ?_⟩
      rw [ClassTable.find, String.toList_ofList]
      exact ⟨hd, helement, hinside⟩
    · rintro ⟨inside, element, hd, helement, hinside⟩
      exact ⟨inside.toList, element, hd, helement, hinside⟩
  found c hc := by
    refine ⟨l.store.classes.findChars_adds d.toList c hc, ClassTable.get?_find hc,
      fun d' c' hc' => ?_⟩
    exact ClassTable.get?_of_extends (l.store.classes.find_extends d) hc'
  failed e he := by
    obtain ⟨hstate, hevents, missing, rfl, hmisses⟩ := l.store.classes.findChars_fails d.toList e he
    exact ⟨hstate, hevents, rfl, missing, rfl, hmisses⟩
  unresolved m hm index hd e he := by
    have hcached : l.store.cached? m index = none := by
      by_contra hsome
      obtain ⟨c, hc⟩ := Option.ne_none_iff_exists'.mp hsome
      -- what is remembered is in the table, and would have been found
      obtain ⟨d', hd', hget⟩ := (h.remembers m hm).cached hc
      cases hd.symm.trans hd'
      rw [ClassTable.find_of_get? hget] at he
      cases he
    obtain ⟨hstate, hevents, -⟩ := l.store.classes.findChars_fails d.toList e he
    have hfound : (l.store.classes.find d).state = l.store.classes := hstate
    refine ⟨?_, hcached⟩
    rw [Store.resolveClass_looked hcached hd, Store.learn, he, hfound]
    exact congrArg (Outcome.mk _ _) hevents

/-- **A lookup is atomic**, after every history. -/
theorem lookup_is_atomic (heap : Heap) (ops : List LinkOp) (d : String) :
    (after { store := { heap } } ops).LooksUp d :=
  ((sound_new heap).after ops).looksUp d

/-- **A layer is left out.**  Somebody has defined a class with the descriptor of an array of
arrays.  The class of arrays of those is made, but the innermost array class is not, though there
is none. -/
theorem lookup_skips_layer :
    let t :=
      (after { store := { heap := Heap.empty { limit := 0 } } } [.define "[[I" 0]).store.classes
    let out := t.find "[[[I"
    out.value = .ok ⟨"[[[I", .array .reference, true⟩ ∧
      "[I".toList ∈ ClassTable.layers "[[[I".toList ∧
      t.get? "[I" = none ∧ out.state.get? "[I" = none := by
  decide +kernel

end Linker

end TracedMachine
