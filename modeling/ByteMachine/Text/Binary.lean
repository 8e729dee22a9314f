/-!
# Binary literals

A literal is one or more of the digits `0` and `1`, most significant first, with any number of
leading zeros. It names a byte if its value is at most 255.
-/

namespace ByteMachine.Binary

/-- The value of one digit. -/
def digit? (c : Char) : Option Nat :=
  if c = '0' then some 0 else if c = '1' then some 1 else none

/-- The value of a row of digits that continue a number `high`. -/
def valueFrom? (high : Nat) : List Char → Option Nat
  | [] => some high
  | c :: rest => (digit? c).bind fun d => valueFrom? (2 * high + d) rest

/-- The byte that a literal names. -/
def byte? (literal : List Char) : Option UInt8 :=
  if literal.isEmpty then none
  else (valueFrom? 0 literal).bind fun n => if n < 256 then some (UInt8.ofNat n) else none

end ByteMachine.Binary
