import TracedMachine.Throwable
import TracedMachine.Trace.Entry

/-!
# Method

Methods, the modules they are loaded in, and the table of all loaded methods.

A method's catch table lists ranges of addresses with a handler each; of the entries that cover
an address for a kind, the first counts.  A loaded method has an id; `MethodTable.register` hands
them out in steps of four from four on, so that a trace record can pack an action into the two low
bits.
-/

namespace TracedMachine

/-- A range of addresses whose throwables go to a handler. -/
structure CatchEntry where
  /-- The first address covered. -/
  first : Nat
  /-- The first address after the range. -/
  limit : Nat
  handler : Nat
  /-- The kind that is caught; nothing stands for every kind. -/
  kind : Option ThrowableKind
deriving DecidableEq, Repr

/-- The entry covers an address for a kind. -/
def CatchEntry.covers (e : CatchEntry) (pc : Nat) (kind : ThrowableKind) : Bool :=
  e.first ≤ pc && pc < e.limit && e.kind.all (· = kind)

/-- A method before it is loaded. -/
structure MethodDef where
  /-- The descriptor of the class that declares it. -/
  className : String
  name : String
  signature : String
  /-- The number of registers of a frame. -/
  registers : Nat
  /-- The number of arguments; they arrive in the last registers. -/
  ins : Nat
  code : Array CodeUnit
  catches : List CatchEntry
deriving DecidableEq, Repr

/-- A loaded method. -/
structure Method extends MethodDef where
  id : MethodId
deriving DecidableEq, Repr

namespace Method

/-- The handler for a kind thrown at an address. -/
def handler? (m : Method) (pc : Nat) (kind : ThrowableKind) : Option Nat :=
  (m.catches.find? fun e => e.covers pc kind).map (·.handler)

/-- The method's line in a trace key. -/
def entry (m : Method) : Trace.MethodEntry :=
  { id := m.id, className := m.className, name := m.name, signature := m.signature }

end Method

/-- Methods and the classes their code refers to by number, before they are loaded. -/
structure ModuleDef where
  classRefs : List String
  methods : List MethodDef

/-- A loaded module. -/
structure Module where
  /-- The number of the cache that holds the module's resolved classes. -/
  cache : Nat
  classRefs : Array String
  methods : Array Method
deriving DecidableEq, Repr

namespace Module

/-- The method with this number. -/
def method? (m : Module) (index : Nat) : Option Method := m.methods[index]?

/-- The number of the first method with a name, if sixteen bits can hold it. -/
def findMethod? (m : Module) (name : String) : Option Nat :=
  (m.methods.findIdx? fun method => method.name = name).filter (· < 0x10000)

end Module

/-- All loaded methods, in the order of their ids. -/
structure MethodTable where
  methods : Array Method := #[]
deriving DecidableEq, Repr

namespace MethodTable

/-- The number of methods. -/
def size (t : MethodTable) : Nat := t.methods.size

/-- The id of the next method. -/
def nextId (t : MethodTable) : MethodId := .ofIndex (t.size.toUInt32 + 1)

/-- Gives a method its id. -/
def register (t : MethodTable) (m : MethodDef) : Method × MethodTable :=
  let method := { m with id := t.nextId }
  (method, ⟨t.methods.push method⟩)

/-- Gives each of several methods its id. -/
def registerAll (t : MethodTable) : List MethodDef → List Method × MethodTable
  | [] => ([], t)
  | m :: ms =>
    let (method, t) := t.register m
    let (methods, t) := t.registerAll ms
    (method :: methods, t)

/-- The method with this id. -/
def get? (t : MethodTable) (id : MethodId) : Option Method :=
  match id.index.toNat with
  | 0 => none
  | n + 1 => t.methods[n]?.filter fun m => m.id = id

end MethodTable

end TracedMachine
