/-!
# Hexadecimal text

Numbers as the program shows them: in upper case with at least two digits (`upper`), in lower case
without padding (`lower`), and a row of bytes with a blank before each (`fields`).
-/

namespace ByteMachine.Hex

/-- The digits of `n` in lower case, most significant first, `0` being written as one digit. -/
def digits (n : Nat) : List Char := Nat.toDigits 16 n

/-- `n` in lower case, without padding. -/
def lower (n : Nat) : String := String.ofList (digits n)

/-- `n` in upper case, padded with zeros to two digits. -/
def upper (n : Nat) : String := String.ofList (((digits n).map Char.toUpper).leftpad 2 '0')

/-- The bytes in order, each as two upper-case digits after a blank. -/
def fields (bytes : List UInt8) : String := String.join (bytes.map fun b => " " ++ upper b.toNat)

end ByteMachine.Hex
