import TracedMachine.Text.Split
import TracedMachine.Text.Utf8
import TracedMachine.Trace.Entry
import TracedMachine.Trace.FormatError

/-!
# Trace — Key

The text at the front of a trace file.  It has sections, each opened by a line that starts with
an asterisk: `*version` with a few facts about the trace, `*threads` with a number and a name per
line, `*methods` with an id and three names per line, and `*end`, after which the data begins.
Fields of a line are separated by tabs.

`keyLines` writes a key.  `KeyReader` reads one line after the other and takes the sections in any
order; of the facts it only heeds whether events were dropped.
-/

namespace TracedMachine.Trace

/-- The line of a thread. -/
def ThreadEntry.line (t : ThreadEntry) : String :=
  s!"{t.id.raw}\t{t.name}"

/-- The line of a method. -/
def MethodEntry.line (m : MethodEntry) : String :=
  s!"{m.id.text}\t{m.className}\t{m.name}\t{m.signature}"

/-- The lines of a key. -/
def keyLines (overflow : UInt32) (threads : List ThreadEntry) (methods : List MethodEntry) :
    List String :=
  ["*version", "1", s!"data-file-overflow={overflow != 0}", s!"overflow-count={overflow}",
    "clock=global", "vm=regvm", "*threads"] ++ threads.map ThreadEntry.line ++
    ["*methods"] ++ methods.map MethodEntry.line ++ ["*end"]

/-- The text of a key. -/
def keyText (overflow : UInt32) (threads : List ThreadEntry) (methods : List MethodEntry) :
    List Char :=
  (keyLines overflow threads methods).flatMap fun line => line.toList ++ ['\n']

/-- The sections of a key that hold lines. -/
inductive KeySection where
  | version
  | threads
  | methods
deriving DecidableEq, Repr

/-- What has been read of a key. -/
structure KeyReader where
  /-- The section of the next line. -/
  current : Option KeySection := none
  /-- A version section was opened. -/
  sawVersion : Bool := false
  /-- The last word on whether events were dropped. -/
  overflowed : Bool := false
  threads : Array ThreadEntry := #[]
  methods : Array MethodEntry := #[]

/-- What a reader does after a line. -/
inductive KeyProgress where
  /-- It reads on. -/
  | more (reader : KeyReader)
  /-- The key has ended. -/
  | ended (reader : KeyReader)

/-- The thread on a line. -/
def ThreadEntry.ofLine? (line : List Char) : Option ThreadEntry := do
  let (id, name) ← Text.splitOnce? '\t' line
  let id ← Text.readNat? 10 255 id
  return ⟨⟨id.toUInt8⟩, String.ofList name⟩

/-- The method on a line; what stands after a fourth tab is not read. -/
def MethodEntry.ofLine? (line : List Char) : Option MethodEntry :=
  match Text.splitAt '\t' line with
  | ('0' :: 'x' :: id) :: className :: name :: signature :: _ =>
    (Text.readNat? 16 0xffffffff id).map fun id =>
      { id := ⟨id.toUInt32⟩
        className := String.ofList className
        name := String.ofList name
        signature := String.ofList signature }
  | _ => none

namespace KeyReader

/-- Reads one line. -/
def line (r : KeyReader) (line : List Char) : Except FormatError KeyProgress :=
  let malformed := FormatError.malformedKey (String.ofList line)
  match line with
  | '*' :: token =>
    if token = "version".toList then
      .ok (.more { r with current := some .version, sawVersion := true })
    else if token = "threads".toList then .ok (.more { r with current := some .threads })
    else if token = "methods".toList then .ok (.more { r with current := some .methods })
    else if token = "end".toList then .ok (.ended r)
    else .error malformed
  | _ =>
    match r.current with
    | none => .error .missingVersion
    | some .version =>
      match Text.dropStart? "data-file-overflow=".toList line with
      | some value => .ok (.more { r with overflowed := value = "true".toList })
      | none => .ok (.more r)
    | some .threads =>
      match ThreadEntry.ofLine? line with
      | some t => .ok (.more { r with threads := r.threads.push t })
      | none => .error malformed
    | some .methods =>
      match MethodEntry.ofLine? line with
      | some m => .ok (.more { r with methods := r.methods.push m })
      | none => .error malformed

/-- Reads lines up to the end of the key, and gives the bytes after it.  `read` is what stands on
the current line so far, last byte first. -/
def run (r : KeyReader) (read : Bytes) : Bytes → Except FormatError (KeyReader × Bytes)
  | [] =>
    if read.isEmpty ∧ !r.sawVersion then .error .missingVersion else .error .missingEnd
  | b :: bytes =>
    if b = 10 then
      match r.line (Text.decode read.reverse) with
      | .error e => .error e
      | .ok (.more r) => r.run [] bytes
      | .ok (.ended r) => if r.sawVersion then .ok (r, bytes) else .error .missingVersion
    else r.run (b :: read) bytes

end KeyReader

end TracedMachine.Trace
