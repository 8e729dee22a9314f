/-!
# Lines of a text

A line ends at a line feed, and one carriage return right before that line feed belongs to the end
too. What follows the last line feed is a line only if it is not empty; a carriage return anywhere
else is an ordinary character.

* `Line.split`: the pieces between line feeds, each marked as ended or not.
* **`lines`**: the lines of a text in order.
-/

namespace ByteMachine

/-- A line as it stands in the text: its characters without the line feed, and whether one ended it. -/
structure Line where
  content : List Char
  ended : Bool
deriving DecidableEq

namespace Line

/-- Put `c` in front of a text that is already split. -/
def cons (c : Char) : List Line → List Line
  | rest => if c = '\n' then ⟨[], true⟩ :: rest else
    match rest with
    | [] => [⟨[c], false⟩]
    | first :: rest => ⟨c :: first.content, first.ended⟩ :: rest

/-- The text cut at every line feed. -/
def split (text : List Char) : List Line := text.foldr cons []

/-- The characters of the line, without a carriage return that belongs to its end. -/
def body (line : Line) : List Char :=
  if line.ended && line.content.getLast? == some '\r' then line.content.dropLast else line.content

end Line

/-- **The lines of a text.** -/
def lines (text : List Char) : List (List Char) := (Line.split text).map Line.body

end ByteMachine
