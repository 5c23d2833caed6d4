import TracedMachine.Trace.Calls

/-!
# Trace — Report

A trace file in words: its head, its threads, how often its methods were called, and, if they are
asked for, its records.
-/

namespace TracedMachine

namespace Trace

/-- The thread in words: its id and its name. -/
def ThreadEntry.text (t : ThreadEntry) : String :=
  s!"{Text.padLeft 3 (toString t.id.raw)} {t.name}"

/-- The method in words: its class, its name and its signature. -/
def MethodEntry.text (m : MethodEntry) : String := s!"{m.className}.{m.name}{m.signature}"

end Trace

open Trace

namespace TraceFile

/-- The line about the head. -/
def headLine (f : TraceFile) : String :=
  let ending := if f.overflowed then " (buffer overflowed)" else ""
  s!"  version {f.header.version}, {f.header.entries} entries, " ++
    s!"{f.header.overflow} dropped{ending}"

/-- The line of a thread. -/
def threadLine (t : ThreadEntry) : String := s!"  thread {t.text}"

/-- The line of a method's calls; a method that the key does not name goes by its id. -/
def callLine (f : TraceFile) (c : CallCount) : String :=
  let name := ((f.method? c.method).map (·.text)).getD c.method.text
  let calls := Text.padLeft 10 (toString c.calls)
  let unwound := Text.padLeft 6 (toString c.unwound)
  s!"  {calls} calls {unwound} unwound  {name}"

/-- The line of a record. -/
def recordLine (f : TraceFile) (r : Record) : String :=
  let name := ((f.method? r.method).map (·.name)).getD "?"
  let elapsed := Text.padLeft 10 (toString r.elapsed)
  let thread := Text.padRight 3 (toString r.thread.raw)
  s!"  {elapsed}us t{thread} {Text.padRight 6 r.action.text} {name}"

/-- The lines about the calls. -/
def callLines (f : TraceFile) : List String := (callCounts f.records).map f.callLine

/-- The report under a title. -/
def report (f : TraceFile) (title : String) (withRecords : Bool) : List String :=
  let records := if withRecords then f.records.map f.recordLine else []
  title :: f.headLine :: (f.threads.map threadLine ++ f.callLines ++ records)

end TraceFile

end TracedMachine
