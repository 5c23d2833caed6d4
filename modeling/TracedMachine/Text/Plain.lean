import TracedMachine.Text.Utf8

/-!
# Text — Plain

Text without control sequences, as a console that does not interpret them writes it.  A sequence
begins with an escape, and what it is made of does not show; nor do control characters, but for
the blank ones.  A line that ends inside a sequence still ends there, unless the sequence is a
string.
-/

namespace TracedMachine.Text

/-- How far a control sequence has come. -/
inductive Sequence where
  /-- There is none. -/
  | none
  /-- An escape was read. -/
  | escape
  /-- An escape was read, and marks that say which set its final character is from. -/
  | escapeMarks
  /-- The parameters of a control function are read, up to its final character. -/
  | control
  /-- A device control string has begun. -/
  | device
  /-- The parameters of a device control string are read. -/
  | deviceParameters
  /-- A device control string had its parameters, and marks follow. -/
  | deviceMarks
  /-- A command to the system is read, up to a bell. -/
  | command
  /-- A string is read, up to its terminator. -/
  | string
deriving DecidableEq, Repr

/-- The control characters that separate words and lines. -/
def isBlankControl (c : Char) : Bool :=
  c = '\t' || c = '\n' || c = '\x0c' || c = '\r'

/-- The character is no single byte. -/
def isWide (c : Char) : Bool := '\x80' ≤ c

namespace Sequence

/-- The character shows, although the sequence is under way or because there is none. -/
def shows (s : Sequence) (c : Char) : Bool :=
  match s with
  | none => (' ' ≤ c && c ≤ '~') || isBlankControl c || isWide c
  | escape | escapeMarks | control => isBlankControl c
  | device | deviceParameters | deviceMarks | command | string => false

/-- The terminator of a string as a byte, which may stand inside a character. -/
def terminator : UInt8 := 0x9c

/-- How far the sequence has come after an escape and a character. -/
def afterEscape (c : Char) : Sequence :=
  if ' ' ≤ c ∧ c ≤ '/' then escapeMarks
  else if c = '[' then control
  else if c = ']' then command
  else if c = 'P' then device
  else if c = 'X' ∨ c = '^' ∨ c = '_' then string
  else if '0' ≤ c ∧ c ≤ '~' then none
  else escape

/-- How far the sequence has come after a character that does not show. -/
def next (s : Sequence) (c : Char) : Sequence :=
  if c = '\x1b' then escape
  else if c = '\x18' ∨ c = '\x1a' then none
  else
    match s with
    | none => none
    | escape => afterEscape c
    | escapeMarks => if '0' ≤ c ∧ c ≤ '~' then none else s
    | control => if '@' ≤ c ∧ c ≤ '~' then none else s
    | device =>
      if ' ' ≤ c ∧ c ≤ '/' then deviceMarks
      else if '0' ≤ c ∧ c ≤ '?' then deviceParameters
      else if '@' ≤ c ∧ c ≤ '~' then string
      else s
    | deviceParameters =>
      if ' ' ≤ c ∧ c ≤ '/' then deviceMarks
      else if '<' ≤ c ∧ c ≤ '~' then string
      else s
    | deviceMarks => if '0' ≤ c ∧ c ≤ '~' then string else s
    | command => if c = '\x07' then none else s
    | string => if (encodeChar c).contains terminator then none else s

end Sequence

/-- What shows of a text that a sequence stands before.  While `showing`, the sequence is set
aside: it goes on at the next character that would not show by itself, and a wide character ends
it. -/
def visible (s : Sequence) (showing : Bool) : List Char → List Char
  | [] => []
  | c :: cs =>
    if (if showing then Sequence.none else s).shows c then
      c :: visible (if isWide c then .none else s) true cs
    else visible (s.next c) false cs

/-- A text without its control sequences. -/
def plain (text : List Char) : List Char := visible .none false text

end TracedMachine.Text
