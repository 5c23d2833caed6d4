/-!
# Word

Registers and array elements are words of 64 bits.  A word is also read as a 32-bit signed
number, its low half, and a 32-bit number is stored with its sign extended.
-/

namespace TracedMachine

/-- What a register or an array element holds. -/
abbrev Word := UInt64

namespace Word

/-- The low half as a signed number. -/
def toInt32 (w : Word) : Int32 := w.toUInt32.toInt32

/-- A signed number with its sign extended. -/
def ofInt32 (n : Int32) : Word := n.toInt64.toUInt64

end Word

/-- The largest size in bytes; sizes that would be larger count as this one. -/
def maxSize : Nat := 0xffffffffffffffff

/-- The sum of two sizes, or the largest size. -/
def addSize (a b : Nat) : Nat := min (a + b) maxSize

/-- The product of two sizes, or the largest size. -/
def mulSize (a b : Nat) : Nat := min (a * b) maxSize

/-- The product of two sizes as a word: what does not fit 64 bits is lost. -/
def mulWrapped (a b : Nat) : Nat := a * b % 0x10000000000000000

end TracedMachine
