import ByteMachine.Proofs.Run

/-!
# Straight-line programs

Instructions as they are written, without the two that jump and without halt, their encoding, and
what they are meant to do. The meaning is said on registers, flags, memory and output alone: it
knows of no program counter, and nothing of the bytes that the instructions are encoded as.

* `Instruction`, `Instruction.bytes`, `encode`: programs, and the bytes that stand for them.
* `Store`, `Instruction.apply`, `fold`: the meaning of an instruction, and of a program.
* `Memory.HasAt`: bytes in a row in the memory.
* **`Store.get?_of_apply`**: an instruction changes nothing below the floor of the stack.
* **`Store.outcome_processor`**: where the bytes of an instruction stand at the program counter, a
  cycle does what the instruction means.
-/

namespace ByteMachine

/-! ## Programs and their encoding -/

/-- The number of a register that exists. -/
abbrev Register : Type := { index : UInt8 // index.toNat < registerCount }

/-- An instruction of a straight-line program. -/
inductive Instruction
  | ldi (a : Register) (value : UInt8)
  | prn (a : Register)
  | add (a b : Register)
  | sub (a b : Register)
  | mul (a b : Register)
  | cmp (a b : Register)
  | inc (a : Register)
  | dec (a : Register)
  | push (a : Register)
  | pop (a : Register)
deriving DecidableEq

namespace Instruction

/-- The operation of the instruction. -/
def opcode : Instruction → Opcode
  | ldi .. => .ldi
  | prn _ => .prn
  | add .. => .add
  | sub .. => .sub
  | mul .. => .mul
  | cmp .. => .cmp
  | inc _ => .inc
  | dec _ => .dec
  | push _ => .push
  | pop _ => .pop

/-- The operand bytes of the instruction. -/
def operands : Instruction → List UInt8
  | ldi a value => [a, value]
  | prn a | inc a | dec a | push a | pop a => [a]
  | add a b | sub a b | mul a b | cmp a b => [a, b]

/-- The instruction as bytes: its code, then its operands. -/
def bytes (i : Instruction) : List UInt8 := i.opcode.code :: i.operands

theorem length_operands (i : Instruction) : i.operands.length = i.opcode.operands.length := by
  cases i <;> rfl

end Instruction

/-- A program as bytes: its instructions one after the other, and the halt instruction. -/
def encode (program : List Instruction) : List UInt8 :=
  program.flatMap Instruction.bytes ++ [Opcode.hlt.code]

/-! ## The meaning of programs -/

/-- What the instructions of a straight-line program work on. -/
structure Store (σ : Type) extends Datapath where
  memory : Ram
  output : σ

namespace Store

variable {σ : Type}

/-- The store before the first instruction. -/
def initial (memory : Ram) (output : σ) : Store σ := { memory, output }

variable (s : Store σ)

/-- The value of a register. -/
def value (a : Register) : UInt8 := s.registers.value a

/-- The store with one register changed. -/
def set (a : Register) (value : UInt8) : Store σ :=
  { s with registers := s.registers.set a value }

/-- The store with a register pushed. -/
def pushed (a : Register) : Store σ :=
  let sp := s.registers.stackPointer - 1
  { s with
    memory := s.memory.set sp.toNat (s.value a)
    registers := s.registers.setStackPointer sp }

/-- The store with a register popped. The stack pointer moves last, so that what is popped into the
stack register is counted up. -/
def popped (a : Register) : Store σ :=
  let registers := s.registers.set a (s.memory.byte s.registers.stackPointer.toNat)
  { s with registers := registers.setStackPointer (registers.stackPointer + 1) }

/-- The processor that is about to carry out the instruction at `offset` of a program. -/
def processor (offset : Nat) : Processor :=
  { s.toDatapath with counter := offset, memory := s.memory }

end Store

section Meaning

variable {σ : Type} (channel : Channel σ) (floor : Nat)

/-- **The meaning of an instruction**, modulo 256 and for a stack that may reach down to the address
`floor`. There is none if the stack is full or would grow below `floor`, or if it is empty. -/
def Instruction.apply (i : Instruction) (s : Store σ) : Option (Store σ) :=
  let sp := s.registers.stackPointer
  match i with
  | ldi a value => some (s.set a value)
  | prn a =>
    some { s with output := (channel.write s.output (Nat.repr (s.value a).toNat ++ "\n")).1 }
  | add a b => some (s.set a (s.value a + s.value b))
  | sub a b => some (s.set a (s.value a - s.value b))
  | mul a b => some (s.set a (s.value a * s.value b))
  | cmp a b => some { s with flags := ⟨some (compare (s.value a) (s.value b))⟩ }
  | inc a => some (s.set a (s.value a + 1))
  | dec a => some (s.set a (s.value a - 1))
  | push a =>
    if 1 ≤ sp ∧ sp ≤ stackTop ∧ floor ≤ (sp - 1).toNat then some (s.pushed a) else none
  | pop a => if sp < stackTop then some (s.popped a) else none

/-- **The meaning of a program**: that of its instructions, one after the other. -/
def fold (program : List Instruction) (s : Store σ) : Option (Store σ) :=
  program.foldlM (fun s i => i.apply channel floor s) s

end Meaning

/-! ## Bytes in a row -/

namespace Memory

variable {size : Nat} {memory : Memory size} {start : Nat} {bytes more : List UInt8}

/-- The memory has these bytes from the address `start` on. -/
def HasAt (memory : Memory size) (start : Nat) (bytes : List UInt8) : Prop :=
  ∀ k byte, bytes[k]? = some byte → memory.get? (start + k) = some byte

namespace HasAt

theorem left (h : memory.HasAt start (bytes ++ more)) : memory.HasAt start bytes := by
  intro k byte hk
  obtain ⟨hlt, -⟩ := List.getElem?_eq_some_iff.mp hk
  exact h k byte (by rw [List.getElem?_append_left hlt, hk])

theorem right (h : memory.HasAt start (bytes ++ more)) :
    memory.HasAt (start + bytes.length) more := by
  intro k byte hk
  rw [Nat.add_assoc]
  refine h (bytes.length + k) byte ?_
  rw [List.getElem?_append_right (Nat.le_add_right _ _), Nat.add_sub_cancel_left, hk]

theorem lt (h : memory.HasAt start bytes) {k : Nat} {byte : UInt8} (hk : bytes[k]? = some byte) :
    start + k < size := by
  by_contra hc
  have hm := h k byte hk
  rw [get?_of_le (Nat.le_of_not_lt hc)] at hm
  cases hm

theorem congr {memory' : Memory size} (h : memory.HasAt start bytes)
    (same : ∀ address < start + bytes.length, memory'.get? address = memory.get? address) :
    memory'.HasAt start bytes := by
  intro k byte hk
  obtain ⟨hlt, -⟩ := List.getElem?_eq_some_iff.mp hk
  rw [same _ (by omega), h k byte hk]

theorem overlay_zero (memory : Memory size) (fits : bytes.length ≤ size) :
    (memory.overlay 0 bytes).HasAt 0 bytes := by
  intro k byte hk
  obtain ⟨hlt, -⟩ := List.getElem?_eq_some_iff.mp hk
  have hm : memory.get? k = some (memory.byte k) := get?_of_lt (by omega)
  rw [Nat.zero_add, get?_overlay, if_pos (Nat.zero_le _), hm, Option.map_some, Nat.sub_zero, hk,
    Option.getD_some]

end HasAt

end Memory

/-! ## The meaning of an instruction and its cycle -/

namespace Store

variable {σ : Type} {channel : Channel σ} {floor offset : Nat} {s s' : Store σ} {i : Instruction}

theorem apply_push_eq_some_iff {a : Register} :
    (Instruction.push a).apply channel floor s = some s' ↔
      (1 ≤ s.registers.stackPointer ∧ s.registers.stackPointer ≤ stackTop ∧
        floor ≤ (s.registers.stackPointer - 1).toNat) ∧ s.pushed a = s' := by
  simp only [Instruction.apply, Option.ite_none_right_eq_some, Option.some.injEq]

theorem apply_pop_eq_some_iff {a : Register} :
    (Instruction.pop a).apply channel floor s = some s' ↔
      s.registers.stackPointer < stackTop ∧ s.popped a = s' := by
  simp only [Instruction.apply, Option.ite_none_right_eq_some, Option.some.injEq]

/-- **An instruction changes nothing below the floor of the stack.** -/
theorem get?_of_apply (h : i.apply channel floor s = some s') {address : Nat}
    (below : address < floor) : s'.memory.get? address = s.memory.get? address := by
  cases i with
  | push a =>
    obtain ⟨⟨-, -, hfloor⟩, rfl⟩ := apply_push_eq_some_iff.mp h
    exact Memory.get?_set_ne (by omega) _
  | pop a =>
    obtain ⟨-, rfl⟩ := apply_pop_eq_some_iff.mp h
    rfl
  | ldi | prn | add | sub | mul | cmp | inc | dec =>
    cases h
    rfl

section AtCounter

variable (code : s.memory.HasAt offset i.bytes)
include code

theorem decoded_processor : (s.processor offset).decoded = .ok i.opcode :=
  Processor.decoded_eq_ok_iff.mpr (code 0 _ rfl)

section Operand

variable (k : Nat) {byte : UInt8} (h : i.operands[k]? = some byte)
include h

theorem peek_processor : (s.processor offset).peek (k + 1) = byte := by
  have hm : s.memory.get? (offset + (k + 1)) = some byte := code (k + 1) byte h
  unfold Processor.peek
  exact (congrArg (Option.getD · 0) hm).trans (Option.getD_some ..)

theorem operandCheck_processor : (s.processor offset).operandCheck (k + 1) = none :=
  Fault.unless_of_pos (code.lt (k := k + 1) h)

end Operand

theorem instruction_processor : (s.processor offset).instruction i.opcode = i.bytes := by
  refine congrArg (i.opcode.code :: ·) (List.ext_getElem ?_ fun k _ hk => ?_)
  · rw [List.length_map, List.length_range', Opcode.operandCount_eq, i.length_operands]
  · rw [List.getElem_map, List.getElem_range', Nat.one_mul, Nat.add_comm,
      peek_processor code k (List.getElem?_eq_getElem hk)]

end AtCounter

theorem registerCheck_register (a : Register) : Datapath.registerCheck a = none :=
  Fault.unless_of_pos a.property

theorem fault?_processor (code : s.memory.HasAt offset i.bytes)
    (h : i.apply channel floor s = some s') : (s.processor offset).fault? i.opcode = none := by
  have check (k : Nat) {byte : UInt8} (hk : i.operands[k]? = some byte) :=
    operandCheck_processor code k hk
  have peek (k : Nat) {byte : UInt8} (hk : i.operands[k]? = some byte) := peek_processor code k hk
  rw [Processor.fault?_eq]
  cases i with
  | ldi a value =>
    simp only [Instruction.opcode, check 0 rfl, check 1 rfl, peek 0 rfl, registerCheck_register,
      Option.none_or]
  | prn a | inc a | dec a =>
    simp only [Instruction.opcode, check 0 rfl, peek 0 rfl, registerCheck_register, Option.none_or]
  | add a b | sub a b | mul a b | cmp a b =>
    simp only [Instruction.opcode, check 0 rfl, check 1 rfl, peek 0 rfl, peek 1 rfl,
      registerCheck_register, Option.none_or]
  | push a =>
    obtain ⟨⟨hlow, htop, -⟩, -⟩ := apply_push_eq_some_iff.mp h
    have hp : (s.processor offset).pushCheck = none := Fault.unless_of_pos ⟨hlow, htop⟩
    simp only [Instruction.opcode, check 0 rfl, peek 0 rfl, registerCheck_register, hp,
      Option.none_or]
  | pop a =>
    obtain ⟨htop, -⟩ := apply_pop_eq_some_iff.mp h
    have hp : (s.processor offset).popCheck = none := Fault.unless_of_pos htop
    simp only [Instruction.opcode, check 0 rfl, peek 0 rfl, registerCheck_register, hp,
      Option.none_or]

section Effect

variable (code : s.memory.HasAt offset i.bytes) (h : i.apply channel floor s = some s')
include code h

theorem registersAfter_processor : (s.processor offset).registersAfter i.opcode = s'.registers := by
  have peek (k : Nat) {byte : UInt8} (hk : i.operands[k]? = some byte) := peek_processor code k hk
  unfold Processor.registersAfter
  cases i with
  | ldi a value =>
    cases h
    simp only [Instruction.opcode, peek 0 rfl, peek 1 rfl]
    rfl
  | prn a | cmp a b =>
    cases h
    rfl
  | add a b | sub a b | mul a b =>
    cases h
    simp only [Instruction.opcode, peek 0 rfl, peek 1 rfl, UInt8.ofInt_add, UInt8.ofInt_mul,
      Alu.ofInt_sub, Alu.ofInt_toNat]
    rfl
  | inc a | dec a =>
    cases h
    simp only [Instruction.opcode, peek 0 rfl, UInt8.ofInt_add, Alu.ofInt_sub, Alu.ofInt_toNat]
    rfl
  | push a =>
    obtain ⟨-, rfl⟩ := apply_push_eq_some_iff.mp h
    rfl
  | pop a =>
    obtain ⟨-, rfl⟩ := apply_pop_eq_some_iff.mp h
    simp only [Instruction.opcode, peek 0 rfl, popped, Registers.stackPointer_set]
    rfl

theorem flagsAfter_processor : (s.processor offset).flagsAfter i.opcode = s'.flags := by
  cases i with
  | cmp a b =>
    cases h
    have ha : (s.processor offset).peek 1 = a := peek_processor code 0 rfl
    have hb : (s.processor offset).peek 2 = b := peek_processor code 1 rfl
    simp only [Instruction.opcode, Processor.flagsAfter, ha, hb, Alu.compare_toNat]
    rfl
  | push a =>
    obtain ⟨-, rfl⟩ := apply_push_eq_some_iff.mp h
    rfl
  | pop a =>
    obtain ⟨-, rfl⟩ := apply_pop_eq_some_iff.mp h
    rfl
  | ldi | prn | add | sub | mul | inc | dec =>
    cases h
    rfl

theorem memoryAfter_processor : (s.processor offset).memoryAfter i.opcode = s'.memory := by
  cases i with
  | push a =>
    obtain ⟨-, rfl⟩ := apply_push_eq_some_iff.mp h
    have ha : (s.processor offset).peek 1 = a := peek_processor code 0 rfl
    simp only [Instruction.opcode, Processor.memoryAfter, Processor.pushed?, ha]
    rfl
  | pop a =>
    obtain ⟨-, rfl⟩ := apply_pop_eq_some_iff.mp h
    rfl
  | ldi | prn | add | sub | mul | cmp | inc | dec =>
    cases h
    rfl

theorem effect_processor :
    (s.processor offset).effect i.opcode = s'.processor (offset + i.bytes.length) := by
  have hc : (s.processor offset).counterAfter i.opcode = offset + i.bytes.length := by
    cases i <;> rfl
  have hh : (s.processor offset).haltedAfter i.opcode = false := by
    cases i <;> rfl
  unfold Processor.effect
  rw [registersAfter_processor code h, flagsAfter_processor code h, memoryAfter_processor code h,
    hc, hh]
  rfl

theorem handOver_processor :
    (Machine.handOver channel s.output ((s.processor offset).printed? i.opcode)).1 = s'.output := by
  cases i with
  | prn a =>
    cases h
    have ha : (s.processor offset).peek 1 = a := peek_processor code 0 rfl
    simp only [Instruction.opcode, Processor.printed?, ha]
    rfl
  | push a =>
    obtain ⟨-, rfl⟩ := apply_push_eq_some_iff.mp h
    rfl
  | pop a =>
    obtain ⟨-, rfl⟩ := apply_pop_eq_some_iff.mp h
    rfl
  | ldi | add | sub | mul | cmp | inc | dec =>
    cases h
    rfl

/-- **A cycle does what the instruction means.** -/
theorem outcome_processor (accepts : channel.Accepts) :
    Machine.outcome channel (s.processor offset) s.output =
      ⟨none, s'.processor (offset + i.bytes.length), s'.output⟩ := by
  have ho := handOver_processor code h
  have hn := Machine.handOver_of_accepts accepts s.output ((s.processor offset).printed? i.opcode)
  unfold Machine.outcome
  rw [decoded_processor code]
  dsimp only
  rw [fault?_processor code h]
  dsimp only
  rw [← effect_processor code h]
  revert ho hn
  rcases Machine.handOver channel s.output _ with ⟨output, reason⟩
  rintro rfl rfl
  rfl

end Effect

end Store

end ByteMachine
