/-!
# Text — Number

Numbers as text.  Written numbers have a fixed number of hexadecimal digits (`hexDigits`) or as
many digits as they need; a number that is read may carry a plus sign and leading zeros, and is
refused above the reader's bound.
-/

namespace TracedMachine.Text

/-- The lowest `width` hexadecimal digits of `n`, highest first. -/
def hexDigits : Nat → Nat → List Char
  | 0, _ => []
  | width + 1, n => hexDigits width (n / 16) ++ [Nat.digitChar (n % 16)]

/-- `0x` and exactly `width` hexadecimal digits. -/
def hex (width n : Nat) : String :=
  "0x" ++ String.ofList (hexDigits width n)

/-- `0x` and as many hexadecimal digits as `n` needs. -/
def shortHex (n : Nat) : String :=
  "0x" ++ String.ofList (Nat.toDigits 16 n)

/-- A number with its sign, also when it is not negative. -/
def signed (n : Int) : String :=
  if 0 ≤ n then "+" ++ toString n else toString n

/-- `text` moved right to at least `width` columns. -/
def padLeft (width : Nat) (text : String) : String :=
  String.ofList (List.replicate (width - text.length) ' ') ++ text

/-- `text` filled on the right to at least `width` columns. -/
def padRight (width : Nat) (text : String) : String :=
  text ++ String.ofList (List.replicate (width - text.length) ' ')

/-- The last `width` decimal digits of `n` after a point, without zeros at the end. -/
def fraction (width n : Nat) : String :=
  let digits := (List.replicate width '0' ++ Nat.toDigits 10 n).reverse.take width
  match digits.dropWhile (· = '0') with
  | [] => ""
  | digits => "." ++ String.ofList digits.reverse

/-- So many microseconds in words, in the largest unit that fits. -/
def duration (micros : Nat) : String :=
  if 1000000 ≤ micros then s!"{micros / 1000000}{fraction 6 micros}s"
  else if 1000 ≤ micros then s!"{micros / 1000}{fraction 3 micros}ms"
  else if 0 < micros then s!"{micros}µs"
  else "0ns"

/-- The value of a digit, letters of either case standing for ten and up. -/
def digitValue? (base : Nat) (c : Char) : Option Nat :=
  let value :=
    if '0' ≤ c ∧ c ≤ '9' then some (c.toNat - 48)
    else if 'a' ≤ c ∧ c ≤ 'z' then some (c.toNat - 87)
    else if 'A' ≤ c ∧ c ≤ 'Z' then some (c.toNat - 55)
    else none
  value.filter (· < base)

/-- The value of a run of digits after `acc`, or nothing if a character is no digit. -/
def digitsValue? (base : Nat) : Nat → List Char → Option Nat
  | acc, [] => some acc
  | acc, c :: cs => (digitValue? base c).bind fun d => digitsValue? base (acc * base + d) cs

/-- One digit or more, with a value of at most `max`. -/
def readDigits? (base max : Nat) : List Char → Option Nat
  | [] => none
  | cs => (digitsValue? base 0 cs).filter (· ≤ max)

/-- A number without a sign or after a plus sign, of at most `max`. -/
def readNat? (base max : Nat) : List Char → Option Nat
  | '+' :: cs => readDigits? base max cs
  | cs => readDigits? base max cs

/-- A decimal number that may carry either sign, between `-bound` and `bound - 1`. -/
def readInt? (bound : Nat) : List Char → Option Int
  | '-' :: cs => (readDigits? 10 bound cs).map fun n => -(n : Int)
  | cs => (readNat? 10 (bound - 1) cs).map fun n => (n : Int)

end TracedMachine.Text
