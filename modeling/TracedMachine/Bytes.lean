/-!
# Bytes

Byte strings and the little-endian numbers in them.  `littleEndian n v` is the lowest `n` bytes of
`v`, lowest first, and `ofLittleEndian` reads such bytes back.
-/

namespace TracedMachine

/-- A byte string. -/
abbrev Bytes := List UInt8

/-- The lowest `width` bytes of `v`, lowest first. -/
def littleEndian : Nat → Nat → Bytes
  | 0, _ => []
  | width + 1, v => (v % 256).toUInt8 :: littleEndian width (v / 256)

/-- The number whose bytes, lowest first, are these. -/
def ofLittleEndian : Bytes → Nat
  | [] => 0
  | b :: bytes => b.toNat + 256 * ofLittleEndian bytes

/-- The number in the `width` bytes from `offset` on; bytes past the end count as absent. -/
def wordAt (bytes : Bytes) (offset width : Nat) : Nat :=
  ofLittleEndian ((bytes.drop offset).take width)

@[simp] theorem length_littleEndian (width v : Nat) : (littleEndian width v).length = width := by
  induction width generalizing v with
  | zero => rfl
  | succ width ih => simp [littleEndian, ih]

end TracedMachine
