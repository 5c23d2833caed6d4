import TracedMachine.Command.Arguments
import TracedMachine.Command.Run
import TracedMachine.Text.Number
import TracedMachine.Trace.Report
import TracedMachine.Word

/-!
# Command

The command line.  `run` runs the workload and `dump` prints a report on a trace file.  Files are
opened elsewhere: what came of it is an argument of the functions that say what a command leaves.
-/

namespace TracedMachine

/-- What the command line asks for. -/
inductive Command where
  /-- Run the workload. -/
  | run (options : RunOptions)
  /-- Report on a trace file, and list its records if they are asked for. -/
  | dump (path : String) (records : Bool)
deriving DecidableEq, Repr

namespace Command

/-- The options of `run`. -/
def runTable : OptionTable :=
  { settings :=
      [("threads", some 't'), ("iterations", some 'i'), ("heap-size", none), ("trace", none),
        ("buffer-size", none)]
    switches := ["alloc-counts", "count-instructions"] }

/-- The options of `dump`. -/
def dumpTable : OptionTable := { switches := ["records"] }

/-- A size in a machine word. -/
def size? (text : String) : Option Nat := Text.readNat? 10 maxSize text.toList

/-- A number of iterations; it may carry either sign, as long as it is not negative. -/
def iterations? (text : String) : Option UInt32 :=
  match Text.readInt? 0x8000000000000000 text.toList with
  | some n => if 0 ≤ n ∧ n ≤ 0xffffffff then some n.toNat.toUInt32 else none
  | none => none

/-- A path, which is not empty. -/
def path? (text : String) : Option String := if text = "" then none else some text

/-- The options with one argument more. -/
def setRunOption (o : RunOptions) : Argument → Option RunOptions
  | .setting "threads" value => (size? value).map fun n => { o with threads := n }
  | .setting "iterations" value => (iterations? value).map fun n => { o with iterations := n }
  | .setting "heap-size" value => (size? value).map fun n => { o with heapSize := n }
  | .setting "trace" value => (path? value).map fun path => { o with trace := some path }
  | .setting "buffer-size" value => (size? value).map fun n => { o with bufferSize := some n }
  | .switch "alloc-counts" => some { o with allocCounts := true }
  | .switch "count-instructions" => some { o with countInstructions := true }
  | _ => none

/-- What words say by a table, with no option given twice. -/
def arguments? (table : OptionTable) (words : List String) : Option (List Argument) :=
  (table.read? words).filter Argument.distinct

/-- The command that words ask for, unless they make no sense. -/
def ofWords? : List String → Option Command
  | "run" :: words => do
    let args ← arguments? runTable words
    run <$> args.foldlM setRunOption {}
  | "dump" :: words => do
    let args ← arguments? dumpTable words
    match args.filter (·.option?.isNone) with
    | [.operand path] => return dump (← path? path) (args.contains (.switch "records"))
    | _ => none
  | _ => none

/-- The exit code for words that make no sense. -/
def usageCode : UInt32 := 2

/-- The report on a trace file, where `contents` came of reading it. -/
def reportOn (path : String) (records : Bool) (contents : Except OutputFault Bytes) : Report :=
  let start : Report := { log := Report.newLog }
  match contents with
  | .error fault => start.fail fault.message
  | .ok bytes =>
    match TraceFile.parse bytes with
    | .error e => start.fail e.message
    | .ok f =>
      let dropped := f.header.overflow
      { start with
        output := f.report path records
        log := if dropped = 0 then start.log else start.log.add (.eventsDropped dropped.toNat) }

end Command

end TracedMachine
