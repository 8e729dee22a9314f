import ByteMachine.Proofs.Checked

/-!
# The parts of a processor

Memory, registers and stack pointer as total functions, and the actions on them as checked actions:
which checks each of them makes, in which order, and what it comes to if they are passed.

* `Memory.byte`, `Memory.set`, `Registers.value`, `Registers.set`: access without a check.
* `Memory.run_writeBlock`: a block is stored entirely or not at all.
* `Alu.exact`, `Alu.applied`: arithmetic on integers, stored modulo 256.
* `Alu.checked_binary`, `Alu.checked_unary`: both registers are checked before the operation.
* `Processor.checked_push`, `Processor.checked_pop`, `Processor.checked_pushRegister`,
  `Processor.checked_popRegister`: the stack.
* `Processor.decoded`, `Processor.run_fetch`: the operation at the program counter.
-/

namespace ByteMachine

/-! ## Memory -/

namespace Memory

variable {size : Nat} (memory : Memory size)

/-- The byte at an address, or zero outside the memory. -/
def byte (address : Nat) : UInt8 := (memory.get? address).getD 0

/-- The memory with one byte changed, or as it is if the address lies outside. -/
def set (address : Nat) (value : UInt8) : Memory size := ⟨memory.bytes.setIfInBounds address value⟩

variable {memory}

theorem get?_of_lt {address : Nat} (h : address < size) :
    memory.get? address = some (memory.byte address) := by
  simp [byte, get?, h]

theorem get?_of_le {address : Nat} (h : size ≤ address) : memory.get? address = none :=
  get?_eq_none_iff.mpr h

theorem get?_set (address : Nat) (value : UInt8) (other : Nat) :
    (memory.set address value).get? other =
      if other = address ∧ other < size then some value else memory.get? other := by
  simp only [get?, set, Vector.getElem?_setIfInBounds]
  by_cases h : other = address
  · subst h
    split_ifs <;> simp_all
  · rw [if_neg (Ne.symm h), if_neg (fun hc => h hc.1)]

theorem get?_set_ne {address other : Nat} (h : other ≠ address) (value : UInt8) :
    (memory.set address value).get? other = memory.get? other := by
  rw [get?_set, if_neg (fun hc => h hc.1)]

theorem get?_set_self {address : Nat} (h : address < size) (value : UInt8) :
    (memory.set address value).get? address = some value := by
  rw [get?_set, if_pos ⟨rfl, h⟩]

theorem byte_set_self {address : Nat} (h : address < size) (value : UInt8) :
    (memory.set address value).byte address = value := by
  rw [byte, get?_set_self h, Option.getD_some]

theorem overlay_nil (start : Nat) (memory : Memory size) : overlay start [] memory = memory := by
  ext1 address
  rw [get?_overlay]
  cases memory.get? address <;> simp

theorem checked_read (memory : Memory size) (address : Nat) :
    (read address).Checked memory ((Fault.outOfBounds .memory address).unless (address < size))
      (.ok (memory.byte address) memory) := by
  unfold Action.Checked
  rw [run_read]
  by_cases h : address < size
  · rw [get?_of_lt h, Fault.unless_of_pos h]
  · rw [get?_of_le (Nat.le_of_not_lt h), Fault.unless_of_neg h]

theorem checked_write (memory : Memory size) (address : Nat) (value : UInt8) :
    (write address value).Checked memory
      ((Fault.outOfBounds .memory address).unless (address < size))
      (.ok () (memory.set address value)) := by
  unfold Action.Checked
  rw [run_write]
  by_cases h : address < size
  · have : memory.bytes.setIfInBounds address value = memory.bytes.set address value h := by
      ext i hi
      simp [Vector.getElem_setIfInBounds, Vector.getElem_set]
    rw [dif_pos h, Fault.unless_of_pos h, set, this]
  · rw [dif_neg h, Fault.unless_of_neg h]

theorem run_writeBlock (start : Nat) (block : List UInt8) (memory : Memory size) :
    (writeBlock start block).run memory =
      if addressLimit ≤ start + block.length then .error .endOverflow memory
      else if size < start + block.length then
        .error (.fault (.outOfBounds .memory (start + block.length - 1))) memory
      else .ok () (overlay start block memory) := by
  unfold writeBlock
  dsimp only
  split_ifs <;> rfl

end Memory

/-! ## Registers -/

namespace Registers

variable (registers : Registers)

/-- The value of a register, or zero if none has this number. -/
def value (index : UInt8) : UInt8 := (registers.get? index).getD 0

/-- The registers with one of them changed, or as they are if none has this number. -/
def set (index value : UInt8) : Registers := ⟨registers.values.setIfInBounds index.toNat value⟩

variable {registers}

theorem get?_of_lt {index : UInt8} (h : index.toNat < registerCount) :
    registers.get? index = some (registers.value index) := by
  simp [value, get?, h]

theorem get?_of_le {index : UInt8} (h : registerCount ≤ index.toNat) :
    registers.get? index = none := by
  simp [get?, h]

theorem set?_of_lt {index : UInt8} (h : index.toNat < registerCount) (new : UInt8) :
    registers.set? index new = some (registers.set index new) := by
  have : registers.values.setIfInBounds index.toNat new =
      registers.values.set index.toNat new h := by
    ext i hi
    simp [Vector.getElem_setIfInBounds, Vector.getElem_set]
  rw [set?, dif_pos h, set, this]

theorem set?_of_le {index : UInt8} (h : registerCount ≤ index.toNat) (new : UInt8) :
    registers.set? index new = none :=
  dif_neg (Nat.not_lt.mpr h)

theorem value_set (index new other : UInt8) :
    (registers.set index new).value other =
      if other = index ∧ other.toNat < registerCount then new else registers.value other := by
  simp only [value, get?, set, Vector.getElem?_setIfInBounds, UInt8.toNat_inj]
  by_cases h : other = index
  · subst h
    split_ifs <;> simp_all
  · rw [if_neg (Ne.symm h), if_neg (fun hc => h hc.1)]

theorem value_set_self {index : UInt8} (h : index.toNat < registerCount) (new : UInt8) :
    (registers.set index new).value index = new := by
  rw [value_set, if_pos ⟨rfl, h⟩]

theorem value_set_ne {index other : UInt8} (h : other ≠ index) (new : UInt8) :
    (registers.set index new).value other = registers.value other := by
  rw [value_set, if_neg (fun hc => h hc.1)]

theorem stackPointer_eq_value : registers.stackPointer = registers.value stackRegister := by
  have h : stackRegister.toNat < registerCount := by decide
  simp only [stackPointer, value, get?, Vector.getElem?_eq_getElem h]
  rfl

theorem setStackPointer_eq_set (new : UInt8) :
    registers.setStackPointer new = registers.set stackRegister new := by
  have h : stackRegister.toNat < registerCount := by decide
  simp only [setStackPointer, set]
  congr 1
  ext i hi
  simp [Vector.getElem_setIfInBounds, Vector.getElem_set]

@[simp]
theorem stackPointer_setStackPointer (new : UInt8) :
    (registers.setStackPointer new).stackPointer = new := by
  rw [setStackPointer_eq_set, stackPointer_eq_value, value_set_self (by decide)]

theorem value_setStackPointer_ne {index : UInt8} (h : index ≠ stackRegister) (new : UInt8) :
    (registers.setStackPointer new).value index = registers.value index := by
  rw [setStackPointer_eq_set, value_set_ne h]

theorem stackPointer_set (index new : UInt8) :
    (registers.set index new).stackPointer =
      if index = stackRegister then new else registers.stackPointer := by
  rw [stackPointer_eq_value, stackPointer_eq_value]
  split_ifs with h
  · rw [h, value_set_self (by decide)]
  · rw [value_set_ne (Ne.symm h)]

end Registers

namespace Datapath

variable (d : Datapath)

/-- The check that a register exists. -/
def registerCheck (index : UInt8) : Option Fault :=
  (Fault.invalidRegister index).unless (index.toNat < registerCount)

theorem checked_read (index : UInt8) :
    (read index).Checked d (registerCheck index) (.ok (d.registers.value index) d) := by
  unfold Action.Checked registerCheck
  rw [run_read]
  by_cases h : index.toNat < registerCount
  · rw [Registers.get?_of_lt h, Fault.unless_of_pos h]
  · rw [Registers.get?_of_le (Nat.le_of_not_lt h), Fault.unless_of_neg h]

theorem checked_write (index new : UInt8) :
    (write index new).Checked d (registerCheck index)
      (.ok () { d with registers := d.registers.set index new }) := by
  unfold Action.Checked registerCheck
  rw [run_write]
  by_cases h : index.toNat < registerCount
  · rw [Registers.set?_of_lt h, Fault.unless_of_pos h]
  · rw [Registers.set?_of_le (Nat.le_of_not_lt h), Fault.unless_of_neg h]

end Datapath

/-! ## Arithmetic -/

namespace Alu

/-- How many registers an operation reads. -/
def arity : Alu → Nat
  | inc | dec => 1
  | add | sub | mul | cmp => 2

/-- The number that an operation computes from the values of its registers. -/
def exact : Alu → Int → Int → Int
  | add, x, y => x + y
  | sub, x, y => x - y
  | mul, x, y => x * y
  | inc, x, _ => x + 1
  | dec, x, _ => x - 1
  | cmp, x, _ => x

/-- The datapath after an operation on the registers `a` and `b`. -/
def applied (alu : Alu) (a b : UInt8) (d : Datapath) : Datapath :=
  let x := (d.registers.value a).toNat
  let y := (d.registers.value b).toNat
  match alu with
  | cmp => { d with flags := ⟨some (compare x y)⟩ }
  | alu => { d with registers := d.registers.set a (UInt8.ofInt (alu.exact x y)) }

/-- The check that an operation works on this number of registers. -/
def arityCheck (alu : Alu) (n : Nat) : Option Fault :=
  (Fault.unsupported alu.opcode).unless (alu.arity = n)

@[simp]
theorem ofInt_toNat (x : UInt8) : UInt8.ofInt x.toNat = x := by
  have h : ((x.toNat : Int) % 2 ^ 8).toNat = x.toNat := by
    have := x.toNat_lt
    omega
  rw [UInt8.ofInt, h, UInt8.ofNat_toNat]

@[simp]
theorem ofInt_sub (x y : Int) : UInt8.ofInt (x - y) = UInt8.ofInt x - UInt8.ofInt y := by
  rw [Int.sub_eq_add_neg, UInt8.ofInt_add, UInt8.ofInt_neg, UInt8.sub_eq_add_neg]

theorem compare_toNat (x y : UInt8) : compare x.toNat y.toNat = compare x y := by
  simp only [compare, compareOfLessAndEq, UInt8.lt_iff_toNat_lt, UInt8.toNat_inj]

theorem checked_binary (alu : Alu) (a b : UInt8) (d : Datapath) :
    (alu.binary a b).Checked d
      ((Datapath.registerCheck a).or ((Datapath.registerCheck b).or (alu.arityCheck 2)))
      (.ok () (alu.applied a b d)) := by
  refine (d.checked_read a).bind_read fun ha => (d.checked_read b).bind_read fun _ => ?_
  -- the first register exists by now, so that storing the result cannot fail
  have hw := fun new => ha ▸ d.checked_write a new
  cases alu with
  | add | sub | mul =>
    simpa [applied, exact, arityCheck, arity, Fault.unless] using hw _
  | cmp =>
    rw [applied, compare_toNat]
    rfl
  | inc | dec => rfl

theorem checked_unary (alu : Alu) (a b : UInt8) (d : Datapath) :
    (alu.unary a).Checked d ((Datapath.registerCheck a).or (alu.arityCheck 1))
      (.ok () (alu.applied a b d)) := by
  refine (d.checked_read a).bind_read fun ha => ?_
  have hw := fun new => ha ▸ d.checked_write a new
  cases alu with
  | inc | dec =>
    simpa [applied, exact, arityCheck, arity, Fault.unless] using hw _
  | add | sub | mul | cmp => rfl

variable {alu : Alu}

theorem checked_binary_of_arity (h : alu.arity = 2) (a b : UInt8) (d : Datapath) :
    (alu.binary a b).Checked d ((Datapath.registerCheck a).or (Datapath.registerCheck b))
      (.ok () (alu.applied a b d)) := by
  simpa [arityCheck, h, Fault.unless] using alu.checked_binary a b d

theorem checked_unary_of_arity (h : alu.arity = 1) (a b : UInt8) (d : Datapath) :
    (alu.unary a).Checked d (Datapath.registerCheck a) (.ok () (alu.applied a b d)) := by
  simpa [arityCheck, h, Fault.unless] using alu.checked_unary a b d

end Alu

/-! ## Processor -/

namespace Processor

variable (p : Processor)

section Parts

variable {α : Type} {p} {f : Option Fault} {a : α}

theorem checked_onDatapath {action : Action Datapath α} {d : Datapath}
    (h : action.Checked p.toDatapath f (.ok a d)) :
    (onDatapath action).Checked p f (.ok a { p with toDatapath := d }) := by
  unfold Action.Checked at *
  rw [run_onDatapath, h]
  cases f <;> rfl

theorem checked_onMemory {action : Action Ram α} {memory : Ram}
    (h : action.Checked p.memory f (.ok a memory)) :
    (onMemory action).Checked p f (.ok a { p with memory }) := by
  unfold Action.Checked at *
  rw [run_onMemory, h]
  cases f <;> rfl

end Parts

theorem checked_readRegister (index : UInt8) :
    (readRegister index).Checked p (Datapath.registerCheck index)
      (.ok (p.registers.value index) p) :=
  checked_onDatapath (p.toDatapath.checked_read index)

theorem checked_writeRegister (index new : UInt8) :
    (writeRegister index new).Checked p (Datapath.registerCheck index)
      (.ok () { p with registers := p.registers.set index new }) :=
  checked_onDatapath (p.toDatapath.checked_write index new)

/-- The check that an operand byte lies in the memory. -/
def operandCheck (n : Nat) : Option Fault :=
  (Fault.outOfBounds .memory (p.counter + n)).unless (p.counter + n < ramSize)

theorem checked_operand (n : Nat) :
    (operand n).Checked p (p.operandCheck n) (.ok (p.peek n) p) :=
  checked_onMemory (p.memory.checked_read _)

/-! ### The stack -/

/-- The stack has room for another byte. -/
def CanPush : Prop := 1 ≤ p.registers.stackPointer ∧ p.registers.stackPointer ≤ stackTop

/-- The stack holds a byte. -/
def CanPop : Prop := p.registers.stackPointer < stackTop

instance : Decidable p.CanPush := inferInstanceAs (Decidable (_ ∧ _))
instance : Decidable p.CanPop := inferInstanceAs (Decidable (_ < _))

/-- The fault of a stack access at the stack pointer. -/
def stackFault : Fault := .outOfBounds .stack p.registers.stackPointer.toNat

/-- The check that the stack has room for another byte. -/
def pushCheck : Option Fault := p.stackFault.unless p.CanPush

/-- The check that the stack holds a byte. -/
def popCheck : Option Fault := p.stackFault.unless p.CanPop

/-- The processor with a byte put on top of the stack. -/
def pushed (value : UInt8) : Processor :=
  { p with
    memory := p.memory.set (p.registers.stackPointer - 1).toNat value
    registers := p.registers.setStackPointer (p.registers.stackPointer - 1) }

/-- The byte on top of the stack. -/
def topByte : UInt8 := p.memory.byte p.registers.stackPointer.toNat

theorem toNat_lt_ramSize (byte : UInt8) : byte.toNat < ramSize := byte.toNat_lt

variable {p} in
theorem not_canPush_iff :
    ¬ p.CanPush ↔ p.registers.stackPointer = 0 ∨ stackTop < p.registers.stackPointer := by
  simp only [CanPush, UInt8.le_iff_toNat_le, UInt8.lt_iff_toNat_lt, ← UInt8.toNat_inj]
  have : (1 : UInt8).toNat = 1 := rfl
  have : (0 : UInt8).toNat = 0 := rfl
  omega

theorem checked_push (value : UInt8) :
    (push value).Checked p p.pushCheck (.ok () (p.pushed value)) := by
  have hw := p.memory.checked_write (p.registers.stackPointer - 1).toNat value
  rw [Fault.unless_of_pos (toNat_lt_ramSize _)] at hw
  have hp : p.pushCheck = (p.stackFault.unless
      ¬ (p.registers.stackPointer = 0 ∨ stackTop < p.registers.stackPointer)).or none := by
    rw [pushCheck, Option.or_none]
    exact Fault.unless_congr (not_not.symm.trans (not_congr not_canPush_iff))
  rw [hp]
  exact .get_bind (.guard ((checked_onMemory hw).bind rfl))

theorem checked_pushRegister (index : UInt8) :
    (pushRegister index).Checked p
      ((Datapath.registerCheck index).or p.pushCheck)
      (.ok () (p.pushed (p.registers.value index))) :=
  (p.checked_readRegister index).bind_read fun _ => p.checked_push _

theorem checked_top : top.Checked p p.popCheck (.ok p.topByte p) := by
  have hr := p.memory.checked_read p.registers.stackPointer.toNat
  rw [Fault.unless_of_pos (toNat_lt_ramSize _)] at hr
  have hp : p.popCheck =
      (p.stackFault.unless ¬ stackTop ≤ p.registers.stackPointer).or none := by
    rw [popCheck, Option.or_none]
    exact Fault.unless_congr UInt8.not_le.symm
  rw [hp]
  exact .get_bind (.guard (checked_onMemory hr))

theorem checked_pop :
    pop.Checked p p.popCheck
      (.ok p.topByte
        { p with registers := p.registers.setStackPointer (p.registers.stackPointer + 1) }) :=
  p.checked_top.bind rfl

theorem checked_popRegister (index : UInt8) :
    (popRegister index).Checked p
      (p.popCheck.or (Datapath.registerCheck index))
      (.ok () { p with
        registers := (p.registers.set index p.topByte).setStackPointer
          ((if index = stackRegister then p.topByte else p.registers.stackPointer) + 1) }) := by
  refine p.checked_top.bind_read fun _ => (p.checked_writeRegister index _).bind ?_
  rw [← Registers.stackPointer_set]
  rfl

/-! ### The operation at the program counter -/

/-- The operation at the program counter, or the reason why there is none. -/
def decoded : Except Fault Opcode :=
  match p.memory.get? p.counter with
  | none => .error (.outOfBounds .memory p.counter)
  | some code =>
    match Opcode.ofByte? code with
    | none => .error (.invalidOpcode code p.counter)
    | some op => .ok op

variable {p} in
theorem decoded_eq_ok_iff {op : Opcode} :
    p.decoded = .ok op ↔ p.memory.get? p.counter = some op.code := by
  unfold decoded
  cases p.memory.get? p.counter with
  | none => simp
  | some code =>
    rw [Option.some.injEq, eq_comm (a := code), ← Opcode.ofByte?_eq_some_iff]
    dsimp only
    cases Opcode.ofByte? code <;> simp

theorem run_fetch :
    fetch.run p =
      match p.decoded with
      | .ok op => .ok op p
      | .error fault => .error fault p := by
  unfold fetch
  simp only [EStateM.run_bind, EStateM.run_get, run_onMemory, Memory.run_read, decoded]
  cases p.memory.get? p.counter with
  | none => rfl
  | some code =>
    dsimp only [Opcode.decode]
    cases Opcode.ofByte? code <;> rfl

end Processor

end ByteMachine
