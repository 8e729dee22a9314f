import ByteMachine.Proofs.Parts

/-!
# The instruction table

What each instruction does, written down as a table: the checks that it has to pass, in their order,
and the new contents of every part of the processor. The main statement is that an instruction
carried out by the machine does what its row says.

* `Opcode.operands`, `Opcode.Pushes`, `Opcode.Pops`: the shape of an instruction.
* `Processor.fault?`: the first check that an instruction fails.
* `Processor.effect`, `Processor.printed?`, `Processor.note`: what it does if it fails none.
* **`Machine.checked_execute`**: the instruction as the table has it, for every output channel.
-/

namespace ByteMachine

/-! ## The shape of an instruction -/

/-- What an operand byte stands for. -/
inductive Operand
  /-- The number of a register. -/
  | register
  /-- Itself. -/
  | value
deriving DecidableEq

namespace Opcode

/-- The operands of an operation, in the order of their bytes. -/
def operands : Opcode → List Operand
  | hlt | ret => []
  | push | pop | prn | call | inc | dec => [.register]
  | ldi => [.register, .value]
  | add | sub | mul | cmp => [.register, .register]

/-- The operation puts a byte on the stack. -/
def Pushes (op : Opcode) : Prop := op = push ∨ op = call

/-- The operation takes a byte off the stack. -/
def Pops (op : Opcode) : Prop := op = pop ∨ op = ret

instance (op : Opcode) : Decidable op.Pushes := inferInstanceAs (Decidable (_ ∨ _))
instance (op : Opcode) : Decidable op.Pops := inferInstanceAs (Decidable (_ ∨ _))

theorem operandCount_eq (op : Opcode) : op.operandCount = op.operands.length := by
  cases op <;> rfl

theorem setsCounter_iff (op : Opcode) : op.setsCounter = true ↔ op = call ∨ op = ret := by
  cases op <;> decide

end Opcode

namespace Processor

variable (p : Processor)

/-! ## Checks -/

/-- The first operand byte that lies outside the memory. -/
def strayOperand? (op : Opcode) : Option Fault :=
  (List.range' 1 op.operandCount).findSome? p.operandCheck

/-- The first operand that should be a register and is not. -/
def strayRegister? (op : Opcode) : Option Fault :=
  (op.operands.zipIdx 1).findSome? fun (operand, k) =>
    match operand with
    | .register => Datapath.registerCheck (p.peek k)
    | .value => none

/-- The check that the address after a call fits into a byte. -/
def returnCheck : Option Fault :=
  (Fault.outOfBounds .memory (p.counter + 2)).unless (p.counter + 2 ≤ 255)

/-- **The first check that an instruction fails**, in the order in which they are made. -/
def fault? (op : Opcode) : Option Fault :=
  (p.strayOperand? op).or <|
  (if op.Pops then p.popCheck else none).or <|
  (p.strayRegister? op).or <|
  (if op = .call then p.returnCheck else none).or <|
  if op.Pushes then p.pushCheck else none

/-! ## Effects -/

/-- The byte that an instruction puts on the stack. -/
def pushed? : Opcode → Option UInt8
  | .push => some (p.registers.value (p.peek 1))
  | .call => some (UInt8.ofNat (p.counter + 2))
  | _ => none

/-- The registers after an instruction. Arithmetic is done on integers, and the result stored
modulo 256. -/
def registersAfter (op : Opcode) : Registers :=
  let a := p.peek 1
  let b := p.peek 2
  let x : Int := (p.registers.value a).toNat
  let y : Int := (p.registers.value b).toNat
  let sp := p.registers.stackPointer
  match op with
  | .hlt | .prn | .cmp => p.registers
  | .ldi => p.registers.set a b
  | .add => p.registers.set a (UInt8.ofInt (x + y))
  | .sub => p.registers.set a (UInt8.ofInt (x - y))
  | .mul => p.registers.set a (UInt8.ofInt (x * y))
  | .inc => p.registers.set a (UInt8.ofInt (x + 1))
  | .dec => p.registers.set a (UInt8.ofInt (x - 1))
  | .push | .call => p.registers.setStackPointer (sp - 1)
  | .pop =>
    (p.registers.set a p.topByte).setStackPointer
      ((if a = stackRegister then p.topByte else sp) + 1)
  | .ret => p.registers.setStackPointer (sp + 1)

/-- The flags after an instruction. -/
def flagsAfter : Opcode → Flags
  | .cmp =>
    ⟨some (compare (p.registers.value (p.peek 1)).toNat (p.registers.value (p.peek 2)).toNat)⟩
  | _ => p.flags

/-- The program counter after an instruction. -/
def counterAfter : Opcode → Nat
  | .call => (p.registers.value (p.peek 1)).toNat
  | .ret => p.topByte.toNat
  | op => p.counter + (1 + op.operands.length)

/-- The memory after an instruction. -/
def memoryAfter (op : Opcode) : Ram :=
  match p.pushed? op with
  | some value => p.memory.set (p.registers.stackPointer - 1).toNat value
  | none => p.memory

/-- Whether the processor has halted after an instruction. -/
def haltedAfter : Opcode → Bool
  | .hlt => true
  | _ => p.halted

/-- **The processor after an instruction** that has passed all its checks. -/
def effect (op : Opcode) : Processor where
  registers := p.registersAfter op
  flags := p.flagsAfter op
  counter := p.counterAfter op
  memory := p.memoryAfter op
  halted := p.haltedAfter op

/-- The text that an instruction prints. -/
def printed? : Opcode → Option String
  | .prn => some (Nat.repr (p.registers.value (p.peek 1)).toNat ++ "\n")
  | _ => none

/-- What the log says about an instruction that was carried out. -/
def note (op : Opcode) : String :=
  let a := Machine.registerName (p.peek 1)
  let b := Machine.registerName (p.peek 2)
  match op with
  | .hlt => "HLT"
  | .ldi => "LDI " ++ a ++ " " ++ Nat.repr (p.peek 2).toNat
  | .prn => "PRN " ++ a ++ ": " ++ Nat.repr (p.registers.value (p.peek 1)).toNat
  | .push => "PUSH " ++ a ++ ": SP 0x" ++ Hex.upper (p.effect op).registers.stackPointer.toNat
  | .pop => "POP " ++ a ++ ": SP 0x" ++ Hex.upper (p.effect op).registers.stackPointer.toNat
  | .call => "CALL " ++ a ++ ": 0x" ++ Hex.upper (p.effect op).counter
  | .ret => "RET 0x" ++ Hex.upper (p.effect op).counter
  | .inc | .dec => op.mnemonic ++ " " ++ a
  | .add | .sub | .mul | .cmp => op.mnemonic ++ " " ++ a ++ " " ++ b

/-! ## The checks, row by row -/

theorem findSome?_cons_or {α β : Type} (f : α → Option β) (a : α) (l : List α) :
    (a :: l).findSome? f = (f a).or (l.findSome? f) := by
  rw [List.findSome?_cons]
  cases f a <;> rfl

theorem fault?_eq (op : Opcode) :
    p.fault? op =
      match op with
      | .hlt => none
      | .ret => p.popCheck
      | .prn | .inc | .dec => (p.operandCheck 1).or (Datapath.registerCheck (p.peek 1))
      | .push => (p.operandCheck 1).or ((Datapath.registerCheck (p.peek 1)).or p.pushCheck)
      | .pop => (p.operandCheck 1).or (p.popCheck.or (Datapath.registerCheck (p.peek 1)))
      | .call =>
        (p.operandCheck 1).or
          ((Datapath.registerCheck (p.peek 1)).or (p.returnCheck.or p.pushCheck))
      | .ldi => (p.operandCheck 1).or ((p.operandCheck 2).or (Datapath.registerCheck (p.peek 1)))
      | .add | .sub | .mul | .cmp =>
        (p.operandCheck 1).or ((p.operandCheck 2).or
          ((Datapath.registerCheck (p.peek 1)).or (Datapath.registerCheck (p.peek 2)))) := by
  cases op <;>
    simp [fault?, strayOperand?, strayRegister?, Opcode.operandCount, Opcode.code, Opcode.operands,
      Opcode.Pops, Opcode.Pushes, List.range', findSome?_cons_or, Option.or_assoc]

end Processor

/-! ## Instructions carried out -/

namespace Machine

variable {σ α : Type} (channel : Channel σ) (m : Machine σ)

variable {m} in
theorem checked_lift {action : Action Processor α} {f : Option Fault} {a : α} {p : Processor}
    (h : action.Checked m.processor f (.ok a p)) :
    (liftM action : Action (Machine σ) α).Checked m f (.ok a { m with processor := p }) := by
  unfold Action.Checked at *
  change (onProcessor action).run m = _
  rw [run_onProcessor, h]
  cases f <;> rfl

variable {m} in
theorem run_lift_congr {x y : Action Processor α} (h : x.run m.processor = y.run m.processor) :
    (liftM x : Action (Machine σ) α).run m = (liftM y : Action (Machine σ) α).run m := by
  change (onProcessor x).run m = (onProcessor y).run m
  rw [run_onProcessor, run_onProcessor, h]

/-- What becomes of the output when a text is handed over, if there is one. -/
def handOver (output : σ) : Option String → σ × Option String
  | none => (output, none)
  | some text => channel.write output text

theorem run_print (text : String) :
    (print channel text).run m =
      match handOver channel m.output (some text) with
      | (output, none) =>
        .ok () { m with output, journal := m.journal.push (.printed text) }
      | (output, some reason) => .error (.output reason) { m with output } := rfl

/-- What an instruction leaves in the journal. -/
def entries (op : Opcode) (p : Processor) : List Event :=
  ((p.printed? op).map .printed).toList ++ [.logged (record .debug (p.note op))]

/-- The result of an instruction that has passed all its checks. Only the output can still fail. -/
def performed (op : Opcode) : EStateM.Result Fault (Machine σ) Unit :=
  match handOver channel m.output (m.processor.printed? op) with
  | (output, none) =>
    .ok () ⟨m.processor.effect op, output, (entries op m.processor).foldl Array.push m.journal⟩
  | (output, some reason) => .error (.output reason) { m with output }

/-- **An instruction does what the table says.** -/
theorem checked_execute (op : Opcode) :
    (execute channel op).Checked m (m.processor.fault? op) (performed channel m op) := by
  set p := m.processor
  rw [p.fault?_eq]
  -- in each case the first goal is what `perform` does, check by check as the row has them, and the
  -- second what is left without a check: the record and the step to the next instruction
  have operand := fun n => checked_lift (m := m) (p.checked_operand n)
  have register := fun index => checked_lift (m := m) (p.checked_readRegister index)
  have alu {action : Action Datapath Unit} {f : Option Fault} {d : Datapath}
      (h : action.Checked p.toDatapath f (.ok () d)) :=
    checked_lift (m := m) (Processor.checked_onDatapath h)
  cases op with
  | hlt => rfl
  | ldi =>
    apply Action.Checked.bind
    · exact (operand 1).bind_read fun _ => (operand 2).bind_read fun _ =>
        (checked_lift (p.checked_writeRegister _ _)).bind rfl
    · rfl
  | prn =>
    have h : (perform channel .prn).Checked m _ _ :=
      (operand 1).bind_read fun _ => (register _).bind rfl
    refine (Action.Checked.bind_result h).of_eq ?_
    have ht : m.processor.printed? .prn =
        some (Nat.repr (p.registers.value (p.peek 1)).toNat ++ "\n") := rfl
    simp only [performed, ht, EStateM.run_bind, run_print]
    rcases handOver channel m.output _ with ⟨output, _ | reason⟩ <;> rfl
  | push =>
    apply Action.Checked.bind
    · exact (operand 1).bind_read fun _ => (checked_lift (p.checked_pushRegister _)).bind rfl
    · rfl
  | pop =>
    apply Action.Checked.bind
    · exact (operand 1).bind_read fun _ => (checked_lift (p.checked_popRegister _)).bind rfl
    · rfl
  | call =>
    have hr : p.returnCheck =
        (Fault.outOfBounds .memory (p.counter + 2)).unless ¬ 256 ≤ p.counter + 2 :=
      Fault.unless_congr (by omega)
    rw [hr]
    apply Action.Checked.bind
    · exact (operand 1).bind_read fun _ => (register _).bind_read fun _ =>
        .get_bind (.guard ((checked_lift (p.checked_push _)).bind rfl))
    · rfl
  | ret =>
    apply Action.Checked.bind
    · exact (checked_lift p.checked_pop).bind rfl
    · rfl
  | inc | dec =>
    apply Action.Checked.bind
    · exact (operand 1).bind_read fun _ =>
        (alu (Alu.checked_unary_of_arity rfl _ 0 _)).bind rfl
    · rfl
  | add | sub | mul | cmp =>
    apply Action.Checked.bind
    · exact (operand 1).bind_read fun _ => (operand 2).bind_read fun _ =>
        (alu (Alu.checked_binary_of_arity rfl _ _ _)).bind rfl
    · rfl

end Machine

end ByteMachine
