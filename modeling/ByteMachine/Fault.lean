import ByteMachine.Opcode
import ByteMachine.Text.Hex

/-!
# Faults

What can go wrong inside the machine, and the actions that may go wrong.

* `Fault`, `Fault.message`: the causes and their texts.
* `Action σ`: a computation on a state `σ` that may stop with a fault. It hands back the state it
  had reached by then, so that leaving the state as it was is a property of each action.
-/

namespace ByteMachine

/-- What an access out of bounds was aimed at. -/
inductive Region
  | memory
  | stack
deriving DecidableEq

/-- The name of the region in messages. -/
def Region.name : Region → String
  | memory => "memory"
  | stack => "stack"

/-- A fault of the machine. None of them can be mended from inside a program. -/
inductive Fault
  /-- The byte at this address stands for no operation. -/
  | invalidOpcode (code : UInt8) (address : Nat)
  /-- An access outside a region. For the stack the address is the stack pointer at the time. -/
  | outOfBounds (region : Region) (address : Nat)
  /-- No register has this number. -/
  | invalidRegister (index : UInt8)
  /-- The arithmetic unit has no such operation, or not with this many operands. -/
  | unsupported (op : Opcode)
  /-- The output did not take a text, for this reason. -/
  | output (reason : String)
deriving DecidableEq

/-- The text of a fault. -/
def Fault.message : Fault → String
  | invalidOpcode code address =>
    "invalid opcode 0x" ++ Hex.upper code.toNat ++ " at 0x" ++ Hex.upper address
  | outOfBounds region address =>
    region.name ++ " access at 0x" ++ Hex.upper address ++ " is out of bounds"
  | invalidRegister index => "invalid register R" ++ Nat.repr index.toNat
  | unsupported op => "unsupported ALU operation: " ++ op.mnemonic
  | output reason => "failed to write output: " ++ reason

/-- A computation on a state that may stop with a fault, keeping the state it had reached. -/
abbrev Action (σ : Type) : Type → Type := EStateM Fault σ

namespace Action

variable {σ α : Type}

@[simp]
theorem run_throw (fault : Fault) (s : σ) : (throw fault : Action σ α).run s = .error fault s :=
  (rfl)

@[simp]
theorem run_ite (c : Prop) [Decidable c] (x y : Action σ α) (s : σ) :
    (if c then x else y).run s = if c then x.run s else y.run s := by
  split <;> rfl

@[simp]
theorem run_tryCatch (x : Action σ α) (handle : Fault → Action σ α) (s : σ) :
    (tryCatch x handle).run s =
      match x.run s with
      | .ok a s => .ok a s
      | .error fault s => (handle fault).run s := by
  change EStateM.tryCatch x handle s = _
  unfold EStateM.tryCatch EStateM.run
  cases x s <;> rfl

end Action

end ByteMachine
