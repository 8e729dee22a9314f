import ByteMachine.Directory
import ByteMachine.Image.Loading

/-!
# Loading a program file

The text of a program, or a file that should hold one, as a memory that is zero wherever the
program does not reach.

* `Image.LoadError`, `LoadError.message`: why there is no memory.
* **`Image.ofText`, `Image.ofFile`**: the memory, and what the log gets on the way.
-/

namespace ByteMachine.Image

/-- Why a program could not be loaded. -/
inductive LoadError
  /-- The file could not be read. -/
  | unreadable (error : ReadError)
  /-- Lines of the text are faulty. -/
  | malformed (errors : List LineError)
deriving DecidableEq

namespace LoadError

/-- The text of the first faulty line. -/
def firstMessage (errors : List LineError) : String := (errors.head?.map LineError.message).getD ""

/-- The text of the error. -/
def message : LoadError → String
  | unreadable error => "failed to read program: " ++ error.message
  | malformed errors =>
    "program has " ++ Nat.repr errors.length ++ " malformed line(s), first: " ++ firstMessage errors

end LoadError

variable {size : Nat}

/-- A memory or the reason why there is none, and what the log got on the way. -/
structure Loaded (size : Nat) where
  result : Except LoadError (Memory size)
  records : List Log.Record

/-- **The program of a text.** -/
def ofText (text : String) : Loaded size :=
  let loading := load text (Memory.zero size)
  ⟨loading.outcome.mapError .malformed, loading.records⟩

/-- **The program of a file**, given what reading the file gave. -/
def ofFile (contents : Except ReadError ByteArray) : Loaded size :=
  match contents with
  | .error error => ⟨.error (.unreadable error), []⟩
  | .ok bytes =>
    match String.fromUTF8? bytes with
    | some text => ofText text
    | none => ⟨.error (.unreadable .invalidText), []⟩

end ByteMachine.Image
