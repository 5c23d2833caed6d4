import TracedMachine.Text.Combining
import TracedMachine.Text.Unprintable

/-!
# Text — Quoted

Text between double quotes, on one line and in visible characters.  Quotes and backslashes are
escaped, four controls have short escapes, and any other character that has no visible form of
its own or attaches to its neighbour is written by its number.
-/

namespace TracedMachine.Text

/-- A character by its number, in braces. -/
def numberEscape (c : Char) : List Char :=
  "\\u\x7b".toList ++ Nat.toDigits 16 c.toNat ++ "\x7d".toList

/-- The form of one character between the quotes. -/
def quotedChar (c : Char) : List Char :=
  if c = '\t' then "\\t".toList
  else if c = '\r' then "\\r".toList
  else if c = '\n' then "\\n".toList
  else if c = '\x00' then "\\0".toList
  else if c = '"' then "\\\"".toList
  else if c = '\\' then "\\\\".toList
  else if ' ' ≤ c ∧ c ≤ '~' then [c]
  else if isCombining c || isUnprintable c then numberEscape c
  else [c]

/-- A text between double quotes. -/
def quoted (text : String) : String :=
  String.ofList ('"' :: text.toList.flatMap quotedChar ++ ['"'])

end TracedMachine.Text
