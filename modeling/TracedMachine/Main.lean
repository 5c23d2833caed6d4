import TracedMachine.Command

/-!
# Main

The program: it opens the files that a command needs and prints what the command leaves.
-/

namespace TracedMachine

/-- The number of an error; some calls give it with its sign turned. -/
def errorNumber (code : UInt32) : UInt32 := if code < 0x80000000 then code else 0 - code

/-- What an error of the file system is. -/
def OutputFault.ofError (e : IO.Error) : OutputFault :=
  match e with
  | .noFileOrDirectory .. => .notFound
  | .inappropriateType _ code _ =>
    if errorNumber code = 21 then .isDirectory else .notDirectory
  | .invalidArgument _ code _ =>
    if errorNumber code = 36 then .nameTooLong else .other (toString e)
  | e => .other (toString e)

/-- Does something with a file, which may fail. -/
def attempt {α : Type} (action : IO α) : IO (Except OutputFault α) := do
  try return .ok (← action) catch e => return .error (.ofError e)

/-- The time, in microseconds. -/
def clock : IO UInt64 := do return ((← IO.monoNanosNow) / 1000).toUInt64

/-- Prints what a command leaves. -/
def Report.print (r : Report) : IO UInt32 := do
  IO.eprint (String.ofList r.logText)
  IO.print (String.ofList r.outputText)
  return r.code

/-- Does what a command asks for. -/
def Command.execute : Command → IO UInt32
  | .dump path records => do
    let contents ← attempt (IO.FS.readBinFile path)
    (Command.reportOn path records (contents.map (·.toList))).print
  | .run options => do
    let opened ← match options.traceFile? with
      | some path => attempt (IO.FS.writeBinFile path .empty)
      | none => pure (.ok ())
    let report ← options.runTimed opened (← clock) (some <$> clock)
    match options.trace, report.written with
    | some path, some bytes =>
      match ← attempt (IO.FS.writeBinFile path ⟨bytes.toArray⟩) with
      | .ok _ => report.print
      | .error fault => (report.fail (TraceError.output fault).message).print
    | _, _ => report.print

end TracedMachine

/-- The program. -/
def main (args : List String) : IO UInt32 := do
  match TracedMachine.Command.ofWords? args with
  | some command => command.execute
  | none =>
    IO.eprintln "usage: run [options] | dump TRACE [--records]"
    return TracedMachine.Command.usageCode
