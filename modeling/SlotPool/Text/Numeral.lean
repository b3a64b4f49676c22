/-!
Unsigned decimal numerals of bounded size. A numeral is an optional plus sign followed by one or
more ASCII digits. Leading zeros are allowed, a value above the bound is refused, and nothing is
cut from the text.
-/

namespace SlotPool.Text

/-- The value of an ASCII digit. -/
def digit? (c : Char) : Option Nat :=
  if '0' ≤ c ∧ c ≤ '9' then some (c.toNat - '0'.toNat) else none

/-- Continues the numeral whose digits so far have the value `value`. Fails at the first character
    that is no digit. -/
def digitsFrom? (value : Nat) : List Char → Option Nat
  | [] => some value
  | c :: rest =>
    match digit? c with
    | some d => digitsFrom? (10 * value + d) rest
    | none => none

/-- The value of a nonempty row of digits. -/
def digits? : List Char → Option Nat
  | [] => none
  | c :: rest => digitsFrom? 0 (c :: rest)

/-- Reads a numeral whose value is at most `bound`. -/
def numeral? (bound : Nat) (text : List Char) : Option Nat :=
  let digits := match text with
    | '+' :: rest => rest
    | _ => text
  (digits? digits).filter (· ≤ bound)

/-- The largest value of a 32-bit unsigned word. -/
def maxWord32 : Nat := 0xFFFFFFFF

/-- The largest value of a 64-bit unsigned word. -/
def maxWord64 : Nat := 0xFFFFFFFFFFFFFFFF

end SlotPool.Text
