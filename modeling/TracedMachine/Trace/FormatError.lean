import TracedMachine.Text.Number
import TracedMachine.Text.Quoted

/-!
# Trace — FormatError

Why bytes are no trace file.
-/

namespace TracedMachine.Trace

/-- Why bytes are no trace file. -/
inductive FormatError where
  /-- The key has no version section, or a line before its first section. -/
  | missingVersion
  /-- The key does not end. -/
  | missingEnd
  /-- A line of the key that its section does not know. -/
  | malformedKey (line : String)
  /-- The data does not begin as trace data does. -/
  | badMagic (found : UInt32)
  /-- A version other than the one there is. -/
  | unsupportedVersion (found : UInt16)
  /-- The data ends too early. -/
  | truncated (needed available : Nat)
  /-- A record's action bits stand for no action. -/
  | reservedAction (index : Nat)
deriving DecidableEq, Repr

/-- The error in words. -/
def FormatError.message : FormatError → String
  | missingVersion => "trace key is missing the `version` section"
  | missingEnd => "trace key is missing the `end` section"
  | malformedKey line => s!"malformed key line: {Text.quoted line}"
  | badMagic found => s!"bad trace magic {Text.hex 8 found.toNat}"
  | unsupportedVersion found => s!"unsupported trace version {found}"
  | truncated needed available =>
    s!"trace data truncated: need {needed} bytes, have {available}"
  | reservedAction index => s!"record {index} carries reserved action bits"

end TracedMachine.Trace
