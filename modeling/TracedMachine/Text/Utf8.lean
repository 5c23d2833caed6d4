/-!
# Text — Utf8

UTF-8 in both directions.  Every character has one written form (`encodeChar`).  Reading is
total: `decode` is a machine that takes one byte at a time, and where the bytes stop being
well formed it writes one replacement character for the longest piece that could have begun a
character, then starts again at the byte that broke it.
-/

namespace TracedMachine.Text

/-- The bytes of one character. -/
def encodeChar (c : Char) : List UInt8 :=
  let v := c.toNat
  if v < 0x80 then [v.toUInt8]
  else if v < 0x800 then [(0xc0 + v / 64).toUInt8, (0x80 + v % 64).toUInt8]
  else if v < 0x10000 then
    [(0xe0 + v / 4096).toUInt8, (0x80 + v / 64 % 64).toUInt8, (0x80 + v % 64).toUInt8]
  else
    [(0xf0 + v / 262144).toUInt8, (0x80 + v / 4096 % 64).toUInt8, (0x80 + v / 64 % 64).toUInt8,
      (0x80 + v % 64).toUInt8]

/-- The bytes of a text. -/
def encode (cs : List Char) : List UInt8 :=
  cs.flatMap encodeChar

/-- Stands for bytes that are no character. -/
def replacement : Char := Char.ofNat 0xfffd

/-- Where a reader stands between two bytes. -/
inductive Utf8State where
  /-- Between characters. -/
  | start
  /-- Inside a character: `more` bytes and one are owed, the next one between `low` and `high`,
  and the bytes so far have the value `value`. -/
  | inside (more low high value : Nat)
deriving DecidableEq, Repr

/-- The first byte of a character: what is written at once, and the state after it. -/
def beginChar (b : UInt8) : List Char × Utf8State :=
  let v := b.toNat
  if v < 0x80 then ([Char.ofNat v], .start)
  else if v < 0xc2 then ([replacement], .start)
  else if v < 0xe0 then ([], .inside 0 0x80 0xbf (v - 0xc0))
  else if v = 0xe0 then ([], .inside 1 0xa0 0xbf 0)
  else if v = 0xed then ([], .inside 1 0x80 0x9f 0xd)
  else if v < 0xf0 then ([], .inside 1 0x80 0xbf (v - 0xe0))
  else if v = 0xf0 then ([], .inside 2 0x90 0xbf 0)
  else if v < 0xf4 then ([], .inside 2 0x80 0xbf (v - 0xf0))
  else if v = 0xf4 then ([], .inside 2 0x80 0x8f 4)
  else ([replacement], .start)

/-- One byte: what is written, and the state after it. -/
def Utf8State.step : Utf8State → UInt8 → List Char × Utf8State
  | .start, b => beginChar b
  | .inside more low high value, b =>
    if low ≤ b.toNat ∧ b.toNat ≤ high then
      let value := value * 64 + b.toNat % 64
      match more with
      | 0 => ([Char.ofNat value], .start)
      | more + 1 => ([], .inside more 0x80 0xbf value)
    else
      let (cs, next) := beginChar b
      (replacement :: cs, next)

/-- What is written from a state on. -/
def Utf8State.read : Utf8State → List UInt8 → List Char
  | .start, [] => []
  | .inside .., [] => [replacement]
  | state, b :: bytes =>
    let (cs, next) := state.step b
    cs ++ next.read bytes

/-- The text of any bytes. -/
def decode (bytes : List UInt8) : List Char :=
  Utf8State.start.read bytes

end TracedMachine.Text
