import ByteMachine.Proofs.Counter
import ByteMachine.Proofs.Stack

/-!
# What faults say

A fault names what was wrong: an address, a register, a byte that is no operation. What it says is
true of the processor before the cycle that fails, and two kinds of faults are out of reach of a
program: the arithmetic unit is never asked for an operation that it lacks, and an output that takes
everything does not fail.

* `Fault.TrueOf`: what each fault says about the processor.
* `Processor.trueOf_of_fault?`: the faults of an instruction, check by check.
* **`Machine.trueOf_of_failure?`**: the faults of a run.
-/

namespace ByteMachine

/-- **What a fault says about a processor** that goes into a cycle with its program counter in the
memory or right behind it. Of two kinds of faults nothing is true. -/
def Fault.TrueOf (p : Processor) : Fault → Prop
  | .invalidOpcode code address =>
    address = p.counter ∧ p.memory.get? address = some code ∧ ∀ op : Opcode, op.code ≠ code
  | .outOfBounds .memory address => address = 0x100
  | .outOfBounds .stack address =>
    address = p.registers.stackPointer.toNat ∧ ∃ op, p.decoded = .ok op ∧
      (op.Pushes ∧ (address = 0 ∨ 0xF4 < address) ∨ op.Pops ∧ 0xF4 ≤ address)
  | .invalidRegister index =>
    8 ≤ index.toNat ∧ ∃ op, p.decoded = .ok op ∧
      (p.memory.get? (p.counter + 1) = some index ∨
        op ∈ [.add, .sub, .mul, .cmp] ∧ p.memory.get? (p.counter + 2) = some index)
  | .unsupported _ => False
  | .output _ => False

/-! ## One check after the other -/

theorem Opcode.register_position (op : Opcode) {k : Nat}
    (h : (Operand.register, k) ∈ op.operands.zipIdx 1) :
    1 ≤ k ∧ k ≤ op.operandCount ∧ (k = 1 ∨ k = 2 ∧ op ∈ [.add, .sub, .mul, .cmp]) := by
  rw [op.operandCount_eq]
  cases op <;> simp [Opcode.operands] at h ⊢ <;> omega

namespace Processor

variable {p : Processor} {op : Opcode} {fault : Fault}

theorem trueOf_of_decoded (hc : p.counter ≤ ramSize) (h : p.decoded = .error fault) :
    fault.TrueOf p := by
  unfold decoded at h
  cases hm : p.memory.get? p.counter with
  | none =>
    rw [hm] at h
    cases h
    exact Nat.le_antisymm hc (Memory.get?_eq_none_iff.mp hm)
  | some code =>
    rw [hm] at h
    dsimp only at h
    cases ho : Opcode.ofByte? code with
    | some op =>
      rw [ho] at h
      cases h
    | none =>
      rw [ho] at h
      cases h
      refine ⟨rfl, hm, fun op he => ?_⟩
      rw [Opcode.ofByte?_eq_some_iff.mpr he] at ho
      cases ho

theorem eq_of_findSome?_operandCheck {first n : Nat} (hc : p.counter + first ≤ ramSize)
    (h : (List.range' first n).findSome? p.operandCheck = some fault) :
    fault = .outOfBounds .memory ramSize := by
  induction n generalizing first with
  | zero => cases h
  | succ n ih =>
    rw [List.range'_succ, findSome?_cons_or, Option.or_eq_some_iff] at h
    obtain h | ⟨hp, h⟩ := h
    · obtain ⟨hn, rfl⟩ := Fault.unless_eq_some_iff.mp h
      rw [Nat.le_antisymm hc (Nat.le_of_not_lt hn)]
    · have : p.counter + first < ramSize := Fault.unless_eq_none_iff.mp hp
      exact ih this h

theorem trueOf_of_strayOperand? (hd : p.decoded = .ok op) (h : p.strayOperand? op = some fault) :
    fault.TrueOf p := by
  rw [eq_of_findSome?_operandCheck (counter_lt_of_decoded hd) h]
  rfl

theorem trueOf_of_popCheck (hd : p.decoded = .ok op) (hp : op.Pops) (h : p.popCheck = some fault) :
    fault.TrueOf p := by
  obtain ⟨hn, rfl⟩ := Fault.unless_eq_some_iff.mp h
  rw [canPop_iff, Nat.not_lt] at hn
  exact ⟨rfl, op, hd, .inr ⟨hp, hn⟩⟩

theorem trueOf_of_pushCheck (hd : p.decoded = .ok op) (hp : op.Pushes)
    (h : p.pushCheck = some fault) : fault.TrueOf p := by
  obtain ⟨hn, rfl⟩ := Fault.unless_eq_some_iff.mp h
  have ht : stackTop.toNat = 0xF4 := rfl
  rw [canPush_iff] at hn
  exact ⟨rfl, op, hd, .inl ⟨hp, by omega⟩⟩

theorem trueOf_of_strayRegister? (hd : p.decoded = .ok op) (inside : p.strayOperand? op = none)
    (h : p.strayRegister? op = some fault) : fault.TrueOf p := by
  obtain ⟨⟨operand, k⟩, hk, hr⟩ := List.exists_of_findSome?_eq_some h
  cases operand with
  | value => cases hr
  | register =>
    obtain ⟨hn, rfl⟩ := Fault.unless_eq_some_iff.mp hr
    have position := op.register_position hk
    -- what is called a register there is the byte in the memory
    have hm : p.memory.get? (p.counter + k) = some (p.peek k) :=
      Memory.get?_of_lt (counter_add_lt_of_strayOperand? inside position.1 position.2.1)
    refine ⟨Nat.le_of_not_lt hn, op, hd, ?_⟩
    obtain rfl | ⟨rfl, two⟩ := position.2.2
    · exact .inl hm
    · exact .inr ⟨two, hm⟩

/-- The address behind a call that has its operand in the memory fits into a byte, unless it is the
one right behind the memory. -/
theorem trueOf_of_returnCheck (inside : p.strayOperand? .call = none)
    (h : p.returnCheck = some fault) : fault.TrueOf p := by
  obtain ⟨hn, rfl⟩ := Fault.unless_eq_some_iff.mp h
  have hl : p.counter + 1 < ramSize :=
    counter_add_lt_of_strayOperand? inside (Nat.le_refl 1) (by decide)
  have hr : ramSize = 256 := rfl
  change p.counter + 2 = 256
  omega

/-- **The first check that an instruction fails says something true.** -/
theorem trueOf_of_fault? (hd : p.decoded = .ok op) (h : p.fault? op = some fault) :
    fault.TrueOf p := by
  simp only [fault?, Option.or_eq_some_iff, Option.ite_none_right_eq_some] at h
  obtain h | ⟨inside, ⟨hp, h⟩ | ⟨-, h | ⟨-, ⟨rfl, h⟩ | ⟨-, hp, h⟩⟩⟩⟩ := h
  · exact trueOf_of_strayOperand? hd h
  · exact trueOf_of_popCheck hd hp h
  · exact trueOf_of_strayRegister? hd inside h
  · exact trueOf_of_returnCheck inside h
  · exact trueOf_of_pushCheck hd hp h

end Processor

/-! ## Runs -/

namespace Machine

variable {σ : Type} {channel : Channel σ}

theorem failure?_of_accepts (accepts : channel.Accepts) (m : Machine σ) :
    failure? channel m =
      match m.processor.decoded with
      | .error fault => some fault
      | .ok op => m.processor.fault? op := by
  have ho : (outcome channel m.processor m.output).failure? = failure? channel m := by
    rw [outcome_eq]
  rw [← ho]
  unfold outcome
  cases m.processor.decoded with
  | error fault => rfl
  | ok op =>
    dsimp only
    cases m.processor.fault? op with
    | some fault => rfl
    | none =>
      have hn := handOver_of_accepts accepts m.output (m.processor.printed? op)
      revert hn
      rcases handOver channel m.output _ with ⟨output, reason⟩
      rintro rfl
      rfl

/-- **Every fault of a run is one that the machine can have, and says what is true.** -/
theorem trueOf_of_failure? (accepts : channel.Accepts) {image : Ram} {m : Machine σ}
    (start : m.processor = .boot image) (k : Nat) {fault : Fault}
    (h : failure? channel (after channel m k) = some fault) :
    fault.TrueOf (after channel m k).processor := by
  have hc : (after channel m k).processor.counter ≤ ramSize :=
    counter_after_le channel (by rw [start]; exact Nat.zero_le _) k
  rw [failure?_of_accepts accepts] at h
  cases hd : (after channel m k).processor.decoded with
  | error fault =>
    rw [hd] at h
    cases h
    exact Processor.trueOf_of_decoded hc hd
  | ok op =>
    rw [hd] at h
    exact Processor.trueOf_of_fault? hd h

/-- A call through the stack pointer, to an addition of a register that does not exist. -/
theorem trueOf_of_failure?_add :
    ∃ m : Machine String, Channel.unbounded.Accepts ∧ m.processor = .boot m.processor.memory ∧
      failure? .unbounded (after .unbounded m 1) = some (.invalidRegister 9) ∧
      (Fault.invalidRegister 9).TrueOf (after .unbounded m 1).processor := by
  let image := (((loaded [0x50, 0x07]).processor.memory.set 0xF4 0xA0).set 0xF6 9)
  let m : Machine String := { processor := .boot image, output := "" }
  have hd : m.processor.decoded = .ok .call :=
    Processor.decoded_eq_ok_iff.mpr (by decide +kernel)
  have hf : m.processor.fault? .call = none := by decide +kernel
  have called : (after .unbounded m 1).processor = m.processor.effect .call := by
    rw [after_one]
    exact (next_of_silent hd rfl hf).2
  have hd' : (after .unbounded m 1).processor.decoded = .ok .add :=
    Processor.decoded_eq_ok_iff.mpr (by rw [called]; decide +kernel)
  have hf' : (m.processor.effect .call).fault? .add = some (.invalidRegister 9) := by
    decide +kernel
  have failed : failure? .unbounded (after .unbounded m 1) = some (.invalidRegister 9) := by
    rw [failure?_of_accepts Channel.accepts_unbounded, hd', called]
    exact hf'
  exact ⟨m, Channel.accepts_unbounded, rfl, failed,
    trueOf_of_failure? Channel.accepts_unbounded rfl 1 failed⟩

end Machine

end ByteMachine
