import ByteMachine.Datapath

/-!
# Arithmetic

Operations on registers, modulo 256 and in place, and the unsigned comparison.

* `Alu.ofOpcode?`: the operation of an instruction that has one.
* **`Alu.binary`, `Alu.unary`**: an operation on two registers, and on one.
-/

namespace ByteMachine

/-- The operations of the arithmetic unit. -/
inductive Alu
  | add
  | sub
  | mul
  | inc
  | dec
  | cmp
deriving DecidableEq

namespace Alu

/-- The instruction that asks for the operation. -/
def opcode : Alu → Opcode
  | add => .add
  | sub => .sub
  | mul => .mul
  | inc => .inc
  | dec => .dec
  | cmp => .cmp

/-- The operation that an instruction asks for. -/
def ofOpcode? : Opcode → Option Alu
  | .add => some add
  | .sub => some sub
  | .mul => some mul
  | .inc => some inc
  | .dec => some dec
  | .cmp => some cmp
  | _ => none

/-- The operation that an instruction asks for; the fault is that of an instruction without one. -/
def ofOpcode {σ : Type} (op : Opcode) : Action σ Alu :=
  match ofOpcode? op with
  | some alu => pure alu
  | none => throw (.unsupported op)

/-- **An operation on two registers.** The result goes into register `a`, or into the flags for a
comparison. Both registers are read before an operation with another number of operands is
refused. -/
def binary (alu : Alu) (a b : UInt8) : Action Datapath Unit := do
  let x ← Datapath.read a
  let y ← Datapath.read b
  match alu with
  | add => Datapath.write a (x + y)
  | sub => Datapath.write a (x - y)
  | mul => Datapath.write a (x * y)
  | cmp => Datapath.compared (compare x y)
  | inc | dec => throw (.unsupported alu.opcode)

/-- **An operation on one register**, in place. -/
def unary (alu : Alu) (a : UInt8) : Action Datapath Unit := do
  let x ← Datapath.read a
  match alu with
  | inc => Datapath.write a (x + 1)
  | dec => Datapath.write a (x - 1)
  | add | sub | mul | cmp => throw (.unsupported alu.opcode)

end Alu

end ByteMachine
