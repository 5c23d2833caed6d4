import TracedMachine.Text.Number

/-!
# MethodId

Method ids and the action packed into their two low bits.  A trace record holds one word for a
method and what happened to it: the id with its two low bits replaced by the action.
-/

namespace TracedMachine

/-- The id of a method. -/
structure MethodId where
  raw : UInt32
deriving DecidableEq, Repr

namespace MethodId

/-- The id with this index; the two high bits of the index are lost. -/
def ofIndex (index : UInt32) : MethodId := ⟨4 * index⟩

/-- The index of an id. -/
def index (m : MethodId) : UInt32 := m.raw / 4

/-- The id in hexadecimal. -/
def text (m : MethodId) : String := Text.hex 8 m.raw.toNat

/-- The synthetic method whose calls bracket collections. -/
def collection : MethodId := ⟨0xfffffff0⟩

/-- The synthetic method whose calls bracket the preparation of a class. -/
def classPreparation : MethodId := ⟨0xfffffff4⟩

/-- Adds an id to ids in ascending order, unless it is among them. -/
def insert (id : MethodId) : List MethodId → List MethodId
  | [] => [id]
  | m :: ms =>
    if id.raw < m.raw then id :: m :: ms
    else if id = m then m :: ms
    else m :: insert id ms

end MethodId

/-- What happens to a method. -/
inductive Action where
  /-- It is called. -/
  | enter
  /-- It returns. -/
  | exit
  /-- It is left by a throwable. -/
  | unwind
deriving DecidableEq, Repr

namespace Action

/-- The action's two bits. -/
def bits : Action → UInt32
  | enter => 0
  | exit => 1
  | unwind => 2

/-- The action in the two low bits of a word; one value of the four is no action. -/
def ofBits? (word : UInt32) : Option Action :=
  match (word % 4).toNat with
  | 0 => some enter
  | 1 => some exit
  | 2 => some unwind
  | _ => none

/-- The action in words. -/
def text : Action → String
  | enter => "enter"
  | exit => "exit"
  | unwind => "unwind"

end Action

namespace MethodId

/-- The id in a word: its two low bits cleared. -/
def ofWord (word : UInt32) : MethodId := ⟨word / 4 * 4⟩

/-- The word of an id and an action: the id's two low bits give way to the action. -/
def word (m : MethodId) (a : Action) : UInt32 := m.raw / 4 * 4 + a.bits

end MethodId

end TracedMachine
