import ByteMachine.Fault

/-!
# Registers and flags

Eight registers of one byte, the last being the stack pointer, and the outcome of the last
comparison. Together they are the datapath, the part of a processor that arithmetic can reach.

* `Registers.get?`, `Registers.set?`: access by number.
* `Flags.bits`: the outcome of the last comparison as a byte laid out `00000LGE`
  (**`Flags.flags_eq_bits`**).
* `Datapath.read`, `Datapath.write`: access by number as an action.
-/

namespace ByteMachine

/-! ## Registers -/

/-- How many registers there are. -/
def registerCount : Nat := 8

/-- The number of the register that holds the stack pointer. -/
def stackRegister : UInt8 := 7

/-- Where the stack begins: it grows downwards from here, and is empty at this stack pointer. -/
def stackTop : UInt8 := 0xF4

/-- The registers. -/
structure Registers where
  values : Vector UInt8 registerCount
deriving DecidableEq

namespace Registers

/-- The registers before a program starts: an empty stack, and zeros. -/
def initial : Registers := ⟨#v[0, 0, 0, 0, 0, 0, 0, stackTop]⟩

/-- The value of a register. -/
def get? (registers : Registers) (index : UInt8) : Option UInt8 := registers.values[index.toNat]?

/-- The registers after one of them is set. -/
def set? (registers : Registers) (index value : UInt8) : Option Registers :=
  if h : index.toNat < registerCount then some ⟨registers.values.set index.toNat value h⟩ else none

/-- The stack pointer. -/
def stackPointer (registers : Registers) : UInt8 :=
  registers.values.get ⟨stackRegister.toNat, by decide⟩

/-- The registers with another stack pointer. -/
def setStackPointer (registers : Registers) (value : UInt8) : Registers :=
  ⟨registers.values.set stackRegister.toNat value (by decide)⟩

end Registers

/-! ## Flags -/

/-- The condition flags: how the first operand of the last comparison stood to the second. No flag
is set before the first comparison, and exactly one after it. -/
structure Flags where
  last : Option Ordering := none
deriving DecidableEq

namespace Flags

/-- The bit of the flag for "less". -/
def lessBit : UInt8 := 0b100

/-- The bit of the flag for "greater". -/
def greaterBit : UInt8 := 0b010

/-- The bit of the flag for "equal". -/
def equalBit : UInt8 := 0b001

/-- Whether the last comparison came out as "less". -/
def less (flags : Flags) : Bool := flags.last == some .lt

/-- Whether the last comparison came out as "greater". -/
def greater (flags : Flags) : Bool := flags.last == some .gt

/-- Whether the last comparison came out as "equal". -/
def equal (flags : Flags) : Bool := flags.last == some .eq

/-- The flags as a byte. -/
def bits (flags : Flags) : UInt8 :=
  match flags.last with
  | none => 0
  | some .lt => lessBit
  | some .gt => greaterBit
  | some .eq => equalBit

/-- **Each flag is a bit of the byte.** -/
theorem flags_eq_bits (flags : Flags) :
    flags.less = (flags.bits &&& lessBit != 0) ∧
      flags.greater = (flags.bits &&& greaterBit != 0) ∧
      flags.equal = (flags.bits &&& equalBit != 0) := by
  obtain ⟨_ | _ | _ | _⟩ := flags <;> decide

theorem bits_inj {flags flags' : Flags} : flags.bits = flags'.bits ↔ flags = flags' := by
  obtain ⟨_ | _ | _ | _⟩ := flags <;> obtain ⟨_ | _ | _ | _⟩ := flags' <;> decide

end Flags

/-! ## Datapath -/

/-- What arithmetic works on. -/
structure Datapath where
  registers : Registers := .initial
  flags : Flags := {}
deriving DecidableEq

namespace Datapath

/-- Read a register. -/
def read (index : UInt8) : Action Datapath UInt8 := do
  match (← get).registers.get? index with
  | some value => pure value
  | none => throw (.invalidRegister index)

/-- Set a register. -/
def write (index value : UInt8) : Action Datapath Unit := do
  match (← get).registers.set? index value with
  | some registers => modify fun d => { d with registers }
  | none => throw (.invalidRegister index)

theorem run_read (index : UInt8) (d : Datapath) :
    (read index).run d =
      match d.registers.get? index with
      | some value => .ok value d
      | none => .error (.invalidRegister index) d := by
  cases h : d.registers.get? index <;> simp [read, h]

theorem run_write (index value : UInt8) (d : Datapath) :
    (write index value).run d =
      match d.registers.set? index value with
      | some registers => .ok () { d with registers }
      | none => .error (.invalidRegister index) d := by
  cases h : d.registers.set? index value <;> simp [write, h]

/-- Take note of how a comparison came out. -/
def compared (ordering : Ordering) : Action Datapath Unit :=
  modify fun d => { d with flags := ⟨some ordering⟩ }

end Datapath

end ByteMachine
