import ByteMachine.Channel
import ByteMachine.Log
import ByteMachine.Processor

/-!
# The machine

A processor connected to an output channel, with a journal of what it printed and logged. One cycle
fetches an instruction, notes the state in the log and executes the instruction; a fault halts the
processor, and all else stays as it was.

* `Machine.perform`, `Machine.execute`: the effect of each operation, and the whole instruction.
* **`Machine.step`**: one cycle.
* **`Machine.runFor`**: cycles until the processor halts, at most a given number of them.
-/

namespace ByteMachine

/-- What a machine did that can be seen from outside. -/
inductive Event
  /-- The output took this text. -/
  | printed (text : String)
  /-- The log got this record. -/
  | logged (record : Log.Record)
deriving DecidableEq

/-- A processor, the state of its output channel, and what was printed and logged so far. -/
structure Machine (σ : Type) where
  processor : Processor
  output : σ
  journal : Array Event := #[]

namespace Machine

variable {σ α : Type}

/-- An action on the processor alone. -/
def onProcessor (action : Action Processor α) : Action (Machine σ) α := fun m =>
  match action.run m.processor with
  | .ok a processor => .ok a { m with processor }
  | .error f processor => .error f { m with processor }

theorem run_onProcessor (action : Action Processor α) (m : Machine σ) :
    (onProcessor action).run m =
      match action.run m.processor with
      | .ok a processor => .ok a { m with processor }
      | .error f processor => .error f { m with processor } := rfl

instance : MonadLift (Action Processor) (Action (Machine σ)) := ⟨onProcessor⟩

/-- The record of a message from the processor. -/
def record (level : Log.Level) (message : String) : Log.Record := ⟨level, .processor, message⟩

/-- Write a message to the log. -/
def log (level : Log.Level) (message : String) : Action (Machine σ) Unit :=
  modify fun m => { m with journal := m.journal.push (.logged (record level message)) }

/-- Hand a text to the output. -/
def print (channel : Channel σ) (text : String) : Action (Machine σ) Unit := fun m =>
  match channel.write m.output text with
  | (output, none) => .ok () { m with output, journal := m.journal.push (.printed text) }
  | (output, some reason) => .error (.output reason) { m with output }

/-! ## Instructions -/

/-- A register in messages. -/
def registerName (index : UInt8) : String := "R" ++ Nat.repr index.toNat

/-- **The effect of an operation** on the operands at the program counter. The result is what the
log says about it. -/
def perform (channel : Channel σ) : Opcode → Action (Machine σ) String
  | .hlt => do
    Processor.halt
    pure "HLT"
  | .ldi => do
    let a ← Processor.operand 1
    let value ← Processor.operand 2
    Processor.writeRegister a value
    pure ("LDI " ++ registerName a ++ " " ++ Nat.repr value.toNat)
  | .prn => do
    let a ← Processor.operand 1
    let value ← Processor.readRegister a
    print channel (Nat.repr value.toNat ++ "\n")
    pure ("PRN " ++ registerName a ++ ": " ++ Nat.repr value.toNat)
  | .push => do
    let a ← Processor.operand 1
    Processor.pushRegister a
    let sp := (← get).processor.registers.stackPointer
    pure ("PUSH " ++ registerName a ++ ": SP 0x" ++ Hex.upper sp.toNat)
  | .pop => do
    let a ← Processor.operand 1
    Processor.popRegister a
    let sp := (← get).processor.registers.stackPointer
    pure ("POP " ++ registerName a ++ ": SP 0x" ++ Hex.upper sp.toNat)
  | .call => do
    let a ← Processor.operand 1
    let target ← Processor.readRegister a
    let back := (← get).processor.counter + Opcode.call.width
    if 256 ≤ back then throw (.outOfBounds .memory back)
    Processor.push (UInt8.ofNat back)
    Processor.jump target.toNat
    pure ("CALL " ++ registerName a ++ ": 0x" ++ Hex.upper target.toNat)
  | .ret => do
    let target ← Processor.pop
    Processor.jump target.toNat
    pure ("RET 0x" ++ Hex.upper target.toNat)
  | op@(.inc) | op@(.dec) => do
    let alu ← Alu.ofOpcode op
    let a ← Processor.operand 1
    Processor.onDatapath (alu.unary a)
    pure (op.mnemonic ++ " " ++ registerName a)
  | op@(.add) | op@(.sub) | op@(.mul) | op@(.cmp) => do
    let alu ← Alu.ofOpcode op
    let a ← Processor.operand 1
    let b ← Processor.operand 2
    Processor.onDatapath (alu.binary a b)
    pure (op.mnemonic ++ " " ++ registerName a ++ " " ++ registerName b)

/-- **One instruction**: its effect, a record of it, and the step to the next one unless the
operation has set the program counter itself. -/
def execute (channel : Channel σ) (op : Opcode) : Action (Machine σ) Unit := do
  let note ← perform channel op
  log .debug note
  unless op.setsCounter do
    Processor.jump ((← get).processor.counter + op.width)

/-! ## Cycles -/

/-- Fetch an instruction, note the state, execute the instruction. -/
def cycle (channel : Channel σ) : Action (Machine σ) Unit := do
  let op ← Processor.fetch
  log .trace (← get).processor.trace
  execute channel op

/-- **One cycle.** A fault is noted, and halts the processor. -/
def step (channel : Channel σ) : Action (Machine σ) Unit := do
  try cycle channel
  catch fault =>
    let counter := (← get).processor.counter
    log .debug ("Processor fault at 0x" ++ Hex.upper counter ++ ": " ++ fault.message)
    Processor.halt
    throw fault

/-- How far a run has come. -/
inductive Progress (σ : Type)
  /-- The number of cycles was used up, and the processor has not halted. -/
  | running (machine : Machine σ)
  /-- The processor has halted. -/
  | halted (machine : Machine σ)
  /-- A cycle failed. -/
  | faulted (fault : Fault) (machine : Machine σ)

/-- **A run** of at most `fuel` cycles, to the first that halts or fails. -/
def runFor (channel : Channel σ) : Nat → Machine σ → Progress σ
  | fuel, m =>
    if m.processor.halted then
      let message := "Program halted at 0x" ++ Hex.upper m.processor.counter
      .halted { m with journal := m.journal.push (.logged (record .info message)) }
    else match fuel with
      | 0 => .running m
      | fuel + 1 =>
        match (step channel).run m with
        | .ok _ m => runFor channel fuel m
        | .error fault m => .faulted fault m

end Machine

end ByteMachine
