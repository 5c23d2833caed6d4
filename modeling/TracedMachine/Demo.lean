import TracedMachine.Method

/-!
# Demo

A workload to try a machine with.  `run(n)` adds up `fill(n)`, `fill(n - 1)` and so on to
`fill(1)`, then calls `probe()`.  `fill(n)` makes an array of `n` numbers, stores its length in its
first place and reads it back.  `probe()` calls `explode()` and catches whatever is thrown;
`explode()` asks for an array of negative size.
-/

namespace TracedMachine.Demo

/-- A method of the workload. -/
def method (name signature : String) (registers ins : Nat) (code : List Instruction)
    (catches : List CatchEntry) : MethodDef :=
  { className := "LDemo;", name, signature, registers, ins
    code := (code.flatMap Instruction.units).toArray
    catches }

/-- Adds up what `fill` answers for the argument and every smaller positive number.  The sum is in
`v0`, the number that counts down in `v3`. -/
def run : MethodDef :=
  method "run" "(I)I" 4 1
    [ .const 0 0,
      .const 1 (-1),
      .ifZero 3 11,
      .invoke 1 1 3,
      .moveResult 2,
      .addInt 0 0 2,
      .addInt 3 3 1,
      .goto (-10),
      .invoke 0 2 0,
      .returnValue 0 ] []

/-- Makes an array and answers its length through its first element. -/
def fill : MethodDef :=
  method "fill" "(I)I" 4 1
    [ .newArray 0 3 0,
      .arrayLength 1 0,
      .const 2 0,
      .arrayPut 1 0 2,
      .arrayGet 1 0 2,
      .returnValue 1 ] []

/-- Calls `explode` and catches what it throws. -/
def probe : MethodDef :=
  method "probe" "()I" 1 0 [.invoke 0 3 0, .moveException 0, .returnValue 0]
    [{ first := 0, limit := 3, handler := 3, kind := none }]

/-- Asks for an array of negative size. -/
def explode : MethodDef :=
  method "explode" "()V" 1 0 [.const 0 (-1), .newArray 0 0 0, .returnVoid] []

/-- The workload; `run` is its first method. -/
def workload : ModuleDef :=
  { classRefs := ["[I"], methods := [run, fill, probe, explode] }

end TracedMachine.Demo
