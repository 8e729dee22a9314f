import ByteMachine.Alu
import ByteMachine.Memory

/-!
# The processor

A datapath, a program counter and the memory that holds both the program and the stack. The stack
grows downwards from `stackTop`; its bounds are checked before anything is changed.

* `Processor`, `Processor.boot`: the state, and the one that a program starts from.
* `Processor.push`, `Processor.pop`, `Processor.pushRegister`, `Processor.popRegister`: the stack.
* `Processor.operand`, `Processor.fetch`: the instruction at the program counter.
* `Processor.trace`: the state on one line.
-/

namespace ByteMachine

/-- The state of the processor together with its memory. -/
structure Processor extends Datapath where
  /-- The address of the next instruction. -/
  counter : Nat := 0
  memory : Ram
  /-- Set by the halt instruction and by every fault of a cycle, and never reset. -/
  halted : Bool := false
deriving DecidableEq

namespace Processor

/-- The processor before the first instruction of a program. -/
def boot (memory : Ram) : Processor := { memory }

/-- Whether a program is still running. -/
def running (p : Processor) : Bool := !p.halted

/-! ## Actions on a part of the processor -/

section Parts

variable {α : Type}

/-- An action on the datapath alone. -/
def onDatapath (action : Action Datapath α) : Action Processor α := fun p =>
  match action.run p.toDatapath with
  | .ok a d => .ok a { p with toDatapath := d }
  | .error f d => .error f { p with toDatapath := d }

/-- An action on the memory alone. -/
def onMemory (action : Action Ram α) : Action Processor α := fun p =>
  match action.run p.memory with
  | .ok a memory => .ok a { p with memory }
  | .error f memory => .error f { p with memory }

theorem run_onDatapath (action : Action Datapath α) (p : Processor) :
    (onDatapath action).run p =
      match action.run p.toDatapath with
      | .ok a d => .ok a { p with toDatapath := d }
      | .error f d => .error f { p with toDatapath := d } := rfl

theorem run_onMemory (action : Action Ram α) (p : Processor) :
    (onMemory action).run p =
      match action.run p.memory with
      | .ok a memory => .ok a { p with memory }
      | .error f memory => .error f { p with memory } := rfl

end Parts

/-- Read a register. -/
def readRegister (index : UInt8) : Action Processor UInt8 := onDatapath (Datapath.read index)

/-- Set a register. -/
def writeRegister (index value : UInt8) : Action Processor Unit :=
  onDatapath (Datapath.write index value)

/-- Go on at another address. -/
def jump (address : Nat) : Action Processor Unit := modify fun p => { p with counter := address }

/-- Stop for good. -/
def halt : Action Processor Unit := modify fun p => { p with halted := true }

/-- Move the stack pointer. -/
def setStackPointer (value : UInt8) : Action Processor Unit :=
  modify fun p => { p with registers := p.registers.setStackPointer value }

/-! ## The stack -/

/-- Push a byte. -/
def push (value : UInt8) : Action Processor Unit := do
  let sp := (← get).registers.stackPointer
  if sp = 0 ∨ stackTop < sp then throw (.outOfBounds .stack sp.toNat)
  onMemory (Memory.write (sp - 1).toNat value)
  setStackPointer (sp - 1)

/-- Push the value of a register. -/
def pushRegister (index : UInt8) : Action Processor Unit := do
  push (← readRegister index)

/-- Read the byte on top of the stack, without moving the stack pointer. -/
def top : Action Processor UInt8 := do
  let sp := (← get).registers.stackPointer
  if stackTop ≤ sp then throw (.outOfBounds .stack sp.toNat)
  onMemory (Memory.read sp.toNat)

/-- Pop a byte. -/
def pop : Action Processor UInt8 := do
  let value ← top
  setStackPointer ((← get).registers.stackPointer + 1)
  pure value

/-- Pop into a register. The stack pointer moves last, so what is popped into the stack register
itself ends up there plus one. -/
def popRegister (index : UInt8) : Action Processor Unit := do
  let value ← top
  writeRegister index value
  setStackPointer ((← get).registers.stackPointer + 1)

/-! ## The instruction at the program counter -/

/-- Operand byte `n` of the instruction, counted from one. -/
def operand (n : Nat) : Action Processor UInt8 := do
  onMemory (Memory.read ((← get).counter + n))

/-- The operation at the program counter. The fault names the byte and the address instead of what the
decoder says. -/
def fetch : Action Processor Opcode := do
  let counter := (← get).counter
  let code ← onMemory (Memory.read counter)
  match Opcode.decode code with
  | .ok op => pure op
  | .error _ => throw (.invalidOpcode code counter)

/-- The byte that stands `n` places after the program counter, or zero outside the memory. -/
def peek (p : Processor) (n : Nat) : UInt8 := (p.memory.get? (p.counter + n)).getD 0

/-- **The state on one line**: the program counter, the three bytes there, the registers. -/
def trace (p : Processor) : String :=
  "TRACE: " ++ Hex.upper p.counter ++ " |" ++ Hex.fields [p.peek 0, p.peek 1, p.peek 2] ++ " |" ++
    Hex.fields p.registers.values.toList

end Processor

end ByteMachine
