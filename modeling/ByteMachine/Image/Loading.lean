import ByteMachine.Image.Line
import ByteMachine.Log
import ByteMachine.Memory
import ByteMachine.Text.Line

/-!
# Loading a program image

The bytes of an image go to consecutive addresses from zero on. Loading does not stop at a faulty
line: all faults are collected, and a faulty line takes up no address.

* `Image.Loading`: how far loading has come; `Loading.line` takes in one more line.
* **`Image.load`**: the whole text, over a memory that may already hold something.
* `Loading.outcome`, `Loading.records`: the memory or the faults, and what the log gets.
-/

namespace ByteMachine.Image

/-- The record of a faulty line. -/
def LineError.record (error : LineError) : Log.Record := ⟨.error, .loader, error.message⟩

/-- How far loading has come. -/
structure Loading (size : Nat) where
  memory : Memory size
  /-- The address of the next byte, which is also the number of bytes stored. -/
  next : Nat := 0
  /-- The faults so far, in the order of their lines. -/
  errors : Array LineError := #[]
  /-- What the log has got so far. -/
  log : Array Log.Record := #[]

namespace Loading

variable {size : Nat}

/-- Note a fault, also in the log. -/
def fail (loading : Loading size) (line : Nat) (fault : LineFault) : Loading size :=
  let error : LineError := ⟨line, fault⟩
  { loading with
    errors := loading.errors.push error
    log := loading.log.push error.record }

/-- Store the byte of line number `line`. -/
def store (loading : Loading size) (line : Nat) (value : UInt8) : Loading size :=
  match (Memory.write loading.next value).run loading.memory with
  | .ok _ memory => { loading with memory, next := loading.next + 1 }
  | .error _ memory => { loading with memory }.fail line (.invalidAddress loading.next)

/-- Take in line number `number`. -/
def line (loading : Loading size) (number : Nat) (text : List Char) : Loading size :=
  if isSignificant text then
    match Binary.byte? (literal text) with
    | some value => loading.store number value
    | none => loading.fail number (.invalidLiteral (String.ofList (literal text)))
  else loading

/-- The memory, if no line was faulty. -/
def outcome (loading : Loading size) : Except (List LineError) (Memory size) :=
  if loading.errors.isEmpty then .ok loading.memory else .error loading.errors.toList

/-- What the log has got at the end: there is one more record if no line was faulty. -/
def records (loading : Loading size) : List Log.Record :=
  if loading.errors.isEmpty then
    (loading.log.push ⟨.debug, .loader, "Loaded " ++ Nat.repr loading.next ++ " bytes"⟩).toList
  else loading.log.toList

end Loading

/-- **Load a text** over a memory. -/
def load {size : Nat} (text : String) (memory : Memory size) : Loading size :=
  ((lines text.toList).zipIdx 1).foldl (fun loading (line, number) => loading.line number line)
    { memory }

end ByteMachine.Image
