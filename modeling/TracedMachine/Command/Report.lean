import TracedMachine.Bytes
import TracedMachine.Notice
import TracedMachine.Text.Plain

/-!
# Command — Report

What a command leaves: the lines it prints, its log, the bytes it writes to its trace file, and
whether it succeeded.
-/

namespace TracedMachine

/-- What a command leaves. -/
structure Report where
  output : List String := []
  log : Log
  /-- The contents of the trace file, if one was made. -/
  written : Option Bytes := none
  succeeded : Bool := true

namespace Report

/-- The log of a command, from the start. -/
def newLog : Log := { threshold := some .info }

/-- The command failed for a reason that it logs. -/
def fail (r : Report) (reason : String) : Report :=
  { r with log := r.log.add (.failure reason), succeeded := false }

/-- The text that the command prints. -/
def outputText (r : Report) : List Char := r.output.flatMap fun line => line.toList ++ ['\n']

/-- A line of the log on the console.  If it holds line feeds, what follows them is indented. -/
def consoleText (line : String) : List Char :=
  Text.plain ((line.toList.flatMap fun c => if c = '\n' then "\n    ".toList else [c]) ++ ['\n'])

/-- The text of the log on the console. -/
def logText (r : Report) : List Char := r.log.lines.toList.flatMap consoleText

/-- The exit code. -/
def code (r : Report) : UInt32 := if r.succeeded then 0 else 1

end Report

end TracedMachine
