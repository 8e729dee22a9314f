import ByteMachine.Text.Binary
import ByteMachine.Text.Blank
import ByteMachine.Text.Hex

/-!
# Lines of a program image

A program image is a text in which every line that starts with `0` or `1` stands for one byte, in
binary, up to a comment that `#` begins. All other lines are skipped.

* `Image.isSignificant`, `Image.literal`: which lines stand for a byte, and the part that names it.
* `Image.LineFault`, `Image.LineError`: what can be wrong with a line, and where.
-/

namespace ByteMachine.Image

/-- Whether a line stands for a byte. -/
def isSignificant : List Char → Bool
  | [] => false
  | c :: _ => c = '0' || c = '1'

/-- The part of a significant line that names the byte: what stands before the first `#`, without
the blanks after it. There are none before it, since the line starts with a digit. -/
def literal (line : List Char) : List Char := trimEnd (line.takeWhile fun c => c ≠ '#')

/-- What can be wrong with a significant line. -/
inductive LineFault
  /-- This literal names no byte. -/
  | invalidLiteral (literal : String)
  /-- The byte would have to go to this address, which the memory does not have. -/
  | invalidAddress (address : Nat)
deriving DecidableEq

namespace LineFault

/-- The kind of the fault as text. -/
def kind : LineFault → String
  | invalidLiteral _ => "invalid literal"
  | invalidAddress address => "memory has no address `0x" ++ Hex.lower address ++ "`"

/-- The circumstances of the fault as text. -/
def context : LineFault → String
  | invalidLiteral literal => "`" ++ literal ++ "` is not an 8-bit binary number"
  | invalidAddress _ => "program does not fit into memory"

end LineFault

/-- A fault and the number of its line, counted from one over all lines of the text. -/
structure LineError where
  line : Nat
  fault : LineFault
deriving DecidableEq

/-- The text of a faulty line. -/
def LineError.message (error : LineError) : String :=
  "error [ln: " ++ Nat.repr error.line ++ "]: " ++ error.fault.kind ++ " - " ++ error.fault.context

end ByteMachine.Image
