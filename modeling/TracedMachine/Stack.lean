import TracedMachine.Event
import TracedMachine.Method
import TracedMachine.Registers

/-!
# Stack

The frames of one thread, the innermost first, with the result of the last call and the throwable
that a handler has not taken yet.  The number of frames is limited.

`Stack.unwind` looks for a handler: it leaves frames without one, down to a given depth.
-/

namespace TracedMachine

/-- A method that is being run. -/
structure Frame where
  /-- Where the method's code looks up classes and methods. -/
  home : Module
  method : Method
  pc : Nat
  registers : Registers
deriving DecidableEq, Repr

namespace Frame

/-- A frame at the start of a method, its registers zero. -/
def enter (home : Module) (method : Method) : Frame :=
  { home, method, pc := 0, registers := .zeroed method.registers }

end Frame

/-- The frames of a thread. -/
structure Stack where
  /-- The frames, the innermost first. -/
  frames : List Frame := []
  /-- The number of frames. -/
  depth : Nat := frames.length
  /-- The result of the last call. -/
  result : Word := 0
  /-- The throwable that a handler was entered for and has not taken yet. -/
  pending : Option Throwable := none
  /-- The number of frames there may be. -/
  limit : Nat
  depth_eq : depth = frames.length := by rfl
deriving DecidableEq, Repr

namespace Stack

/-- The number of frames there may be unless another one is asked for. -/
def usualLimit : Nat := 1024

/-- A stack without frames. -/
def empty (limit : Nat) : Stack := { limit }

/-- Checks that there is room for a frame. -/
def room (s : Stack) : Except Throwable Unit :=
  if s.limit ≤ s.depth then .error (.stackOverflow s.depth) else .ok ()

/-- Adds a frame. -/
def push (s : Stack) (f : Frame) : Stack :=
  { s with frames := f :: s.frames, depth := s.depth + 1, depth_eq := by simp [s.depth_eq] }

/-- Removes the innermost frame. -/
def pop (s : Stack) : Stack :=
  { s with frames := s.frames.tail, depth := s.depth - 1, depth_eq := by simp [s.depth_eq] }

/-- Changes the innermost frame. -/
def modifyTop (s : Stack) (change : Frame → Frame) : Stack :=
  match s with
  | { frames := f :: rest, depth, result, pending, limit, depth_eq } =>
    { frames := change f :: rest, depth, result, pending, limit, depth_eq }
  | s => s

/-- What is left of a stack when a throwable has looked for a handler. -/
structure Unwound where
  stack : Stack
  /-- A handler was found; it is where the innermost frame goes on. -/
  caught : Bool
  events : List Event

/-- Leaves up to `count` frames until one has a handler for the throwable. -/
def unwindTop (t : Throwable) : Nat → Stack → Unwound
  | 0, s => ⟨s, false, []⟩
  | count + 1, s =>
    match s.frames with
    | [] => ⟨s, false, []⟩
    | f :: _ =>
      match f.method.handler? f.pc t.kind with
      | some handler =>
        ⟨s.modifyTop fun f => { f with pc := handler }, true,
          [.notice (.caught t f.method.name f.pc)]⟩
      | none =>
        let below := unwindTop t count s.pop
        { below with events := .method f.method.id .unwind :: below.events }

/-- Leaves frames until one has a handler for the throwable or only `base` frames are left. -/
def unwind (s : Stack) (t : Throwable) (base : Nat) : Unwound :=
  unwindTop t (s.depth - base) s

end Stack

end TracedMachine
