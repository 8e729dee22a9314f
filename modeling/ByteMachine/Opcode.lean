/-!
# Operation codes

The thirteen operations of the machine and the bytes that stand for them. A code is laid out as
`AABCDDDD`: `AA` is the number of operand bytes that follow it, and `C` marks an operation that
sets the program counter itself.

* `Opcode.code`, `Opcode.ofByte?`, `Opcode.decode`: an operation as a byte, and the way back
  (**`Opcode.ofByte?_eq_some_iff`**).
* `Opcode.all`: every operation, in order (`Opcode.mem_all`, `Opcode.pairwise_all`).
* `Opcode.operandCount`, `Opcode.width`, `Opcode.setsCounter`: what the bits of the code say.
* `Opcode.mnemonic`, `Opcode.ofMnemonic?`: its name.
-/

namespace ByteMachine

/-- The operations, in ascending order of their codes. -/
inductive Opcode
  /-- Halt. -/
  | hlt
  /-- Pop an address and go on there. -/
  | ret
  /-- Push a register. -/
  | push
  /-- Pop into a register. -/
  | pop
  /-- Print a register in decimal. -/
  | prn
  /-- Push the address of the next instruction and go on at the address in a register. -/
  | call
  /-- Add one to a register. -/
  | inc
  /-- Subtract one from a register. -/
  | dec
  /-- Load a byte into a register. -/
  | ldi
  /-- Add the second register to the first. -/
  | add
  /-- Subtract the second register from the first. -/
  | sub
  /-- Multiply the first register by the second. -/
  | mul
  /-- Compare two registers and set the flags. -/
  | cmp
deriving DecidableEq

namespace Opcode

/-- Every operation, in ascending order of the codes. -/
def all : List Opcode :=
  [hlt, ret, push, pop, prn, call, inc, dec, ldi, add, sub, mul, cmp]

/-- The byte that stands for the operation. -/
def code : Opcode → UInt8
  | hlt => 0x01
  | ret => 0x11
  | push => 0x45
  | pop => 0x46
  | prn => 0x47
  | call => 0x50
  | inc => 0x65
  | dec => 0x66
  | ldi => 0x82
  | add => 0xA0
  | sub => 0xA1
  | mul => 0xA2
  | cmp => 0xA7

/-- The name of the operation in programs and messages. -/
def mnemonic : Opcode → String
  | hlt => "HLT"
  | ret => "RET"
  | push => "PUSH"
  | pop => "POP"
  | prn => "PRN"
  | call => "CALL"
  | inc => "INC"
  | dec => "DEC"
  | ldi => "LDI"
  | add => "ADD"
  | sub => "SUB"
  | mul => "MUL"
  | cmp => "CMP"

/-- The operation that a byte stands for. -/
def ofByte? (byte : UInt8) : Option Opcode := all.find? fun op => op.code = byte

theorem ofByte?_code (op : Opcode) : ofByte? op.code = some op := by cases op <;> rfl

/-- **A byte stands for an operation exactly if it is its code.** -/
theorem ofByte?_eq_some_iff {byte : UInt8} {op : Opcode} :
    ofByte? byte = some op ↔ op.code = byte := by
  constructor
  · intro h
    simpa using List.find?_some h
  · rintro rfl
    exact ofByte?_code op

/-- The operation of a name. -/
def ofMnemonic? (name : String) : Option Opcode := all.find? fun op => op.mnemonic = name

/-- How many operand bytes follow the code: its two high bits. -/
def operandCount (op : Opcode) : Nat := op.code.toNat >>> 6

/-- How many bytes the instruction takes in memory. -/
def width (op : Opcode) : Nat := op.operandCount + 1

/-- Whether the operation sets the program counter itself: bit four of the code. -/
def setsCounter (op : Opcode) : Bool := op.code &&& 0x10 != 0

/-- Operations are ordered by their codes. -/
instance : Ord Opcode := ⟨fun a b => compare a.code b.code⟩

theorem mem_all (op : Opcode) : op ∈ all := by cases op <;> decide

theorem pairwise_all : all.Pairwise fun a b => compare a b = .lt := by decide

/-- What is said of a byte that stands for no operation. -/
def unknownMessage (byte : UInt8) : String :=
  s!"No discriminant in enum `Instruction` matches the value `{byte.toNat}`"

/-- The operation that a byte stands for, or what is said if there is none. -/
def decode (byte : UInt8) : Except String Opcode :=
  match ofByte? byte with
  | some op => .ok op
  | none => .error (unknownMessage byte)

end Opcode

end ByteMachine
