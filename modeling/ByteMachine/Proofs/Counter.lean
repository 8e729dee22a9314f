import ByteMachine.Proofs.Run

/-!
# The program counter

The program counter stays in the memory or right behind it, whatever is done to the rest of the
processor between cycles: an instruction has read its last byte before it moves on, and a jump goes
to the address in a byte.

* `Processor.counter_add_operandCount_lt`: an instruction has read its last byte.
* **`Machine.counter_next_le`**: one cycle.
* `StackCall`, `StackCall.checked_action`: the stack operations, called from outside of a program.
* `Processor.Disturbed`, **`Processor.Disturbed.counter_le`**: where cycles lead if anything else may
  change between them.
-/

namespace ByteMachine

theorem Opcode.width_le (op : Opcode) : op.width ≤ 3 := by
  cases op <;> decide

/-! ## One cycle -/

namespace Processor

variable {p : Processor} {op : Opcode}

theorem counter_lt_of_decoded (h : p.decoded = .ok op) : p.counter < ramSize := by
  rw [decoded_eq_ok_iff] at h
  by_contra hc
  rw [Memory.get?_of_le (Nat.le_of_not_lt hc)] at h
  cases h

theorem counter_add_lt_of_strayOperand? (h : p.strayOperand? op = none) {k : Nat} (first : 1 ≤ k)
    (last : k ≤ op.operandCount) : p.counter + k < ramSize := by
  rw [strayOperand?, List.findSome?_eq_none_iff] at h
  exact Fault.unless_eq_none_iff.mp (h k (List.mem_range'_1.mpr (by omega)))

theorem counter_add_operandCount_lt (hd : p.decoded = .ok op) (hf : p.fault? op = none) :
    p.counter + op.operandCount < ramSize := by
  obtain h | h := Nat.eq_zero_or_pos op.operandCount
  · rw [h]
    exact counter_lt_of_decoded hd
  · simp only [fault?, Option.or_eq_none_iff] at hf
    exact counter_add_lt_of_strayOperand? hf.1 h (Nat.le_refl _)

theorem counterAfter_eq (h : op.setsCounter = false) :
    p.counterAfter op = p.counter + op.width := by
  rw [Opcode.width, Opcode.operandCount_eq, Nat.add_comm op.operands.length]
  cases op with
  | call | ret => exact absurd h (by decide)
  | _ => rfl

theorem counterAfter_lt (h : op.setsCounter = true) : p.counterAfter op < ramSize := by
  rw [Opcode.setsCounter_iff] at h
  obtain rfl | rfl := h
  · exact toNat_lt_ramSize _
  · exact toNat_lt_ramSize _

theorem counter_effect_le (hd : p.decoded = .ok op) (hf : p.fault? op = none) :
    (p.effect op).counter ≤ ramSize := by
  change p.counterAfter op ≤ ramSize
  cases hs : op.setsCounter with
  | true => exact Nat.le_of_lt (counterAfter_lt hs)
  | false =>
    have := counter_add_operandCount_lt hd hf
    rw [counterAfter_eq hs, Opcode.width]
    omega

end Processor

namespace Machine

variable {σ : Type}

/-- **A cycle keeps the program counter in the memory or right behind it.** -/
theorem counter_next_le (channel : Channel σ) {m : Machine σ} (h : m.processor.counter ≤ ramSize) :
    (next channel m).processor.counter ≤ ramSize := by
  obtain ⟨-, op, hd, hf, he⟩ | ⟨fault, -, he⟩ := next_cases channel m
  · rw [he]
    exact Processor.counter_effect_le hd hf
  · rw [he]
    exact h

theorem counter_after_le (channel : Channel σ) {m : Machine σ} (h : m.processor.counter ≤ ramSize)
    (k : Nat) : (after channel m k).processor.counter ≤ ramSize := by
  induction k with
  | zero => exact h
  | succ k ih =>
    rw [after_succ]
    exact counter_next_le channel ih

theorem counter_of_perform_ok {channel : Channel σ} {m m' : Machine σ} {op : Opcode} {note : String}
    (hs : op.setsCounter = false) (h : (perform channel op).run m = .ok note m') :
    m'.processor.counter = m.processor.counter := by
  have hx : ∃ m'', (execute channel op).run m = .ok () m'' ∧
      m''.processor.counter = m'.processor.counter + op.width := by
    unfold execute
    rw [EStateM.run_bind, h, hs]
    exact ⟨_, rfl, rfl⟩
  obtain ⟨m'', hx, hc⟩ := hx
  have hf := (checked_execute channel m op).eq_none_of_ok hx
  rw [(checked_execute channel m op).run_of_passed hf] at hx
  rw [processor_of_performed_ok hx] at hc
  exact Nat.add_right_cancel (hc.symm.trans (Processor.counterAfter_eq hs))

end Machine

/-! ## Stack operations from outside -/

/-- A stack operation that is called from outside of a program. -/
inductive StackCall
  | push (value : UInt8)
  | pushRegister (index : UInt8)
  | pop
  | popRegister (index : UInt8)

namespace StackCall

/-- What the call does. The byte that a pop hands back is left aside. -/
def action : StackCall → Action Processor Unit
  | push value => Processor.push value
  | pushRegister index => Processor.pushRegister index
  | pop => do
    let _ ← Processor.pop
    pure ()
  | popRegister index => Processor.popRegister index

variable (p : Processor)

def fault? : StackCall → Option Fault
  | push _ => p.pushCheck
  | pushRegister index => (Datapath.registerCheck index).or p.pushCheck
  | pop => p.popCheck
  | popRegister index => p.popCheck.or (Datapath.registerCheck index)

theorem checked_action (call : StackCall) :
    ∃ registers memory, call.action.Checked p (call.fault? p) (.ok () { p with registers, memory }) := by
  cases call with
  | push value => exact ⟨_, _, p.checked_push value⟩
  | pushRegister index => exact ⟨_, _, p.checked_pushRegister index⟩
  | pop => exact ⟨_, p.memory, p.checked_pop.bind rfl⟩
  | popRegister index => exact ⟨_, p.memory, p.checked_popRegister index⟩

/-- **No call accesses a byte outside of the memory.** -/
theorem fault?_ne_memory (call : StackCall) (address : Nat) :
    call.fault? p ≠ some (.outOfBounds .memory address) := by
  cases call <;>
    simp [fault?, Processor.pushCheck, Processor.popCheck, Processor.stackFault,
      Datapath.registerCheck, Option.or_eq_some_iff, Fault.unless_eq_some_iff]

end StackCall

/-! ## Cycles with anything else changed in between -/

/-- **What becomes of a processor** that is loaded with an image and goes through cycles, on any
outputs and whatever comes of them, while anything but its program counter may be changed in
between. -/
inductive Processor.Disturbed : Processor → Prop
  | boot (image : Ram) : Disturbed (.boot image)
  | cycle {σ : Type} (channel : Channel σ) {m : Machine σ} (before : Disturbed m.processor) :
      Disturbed (m.next channel).processor
  | change {p : Processor} (before : Disturbed p) (registers : Registers) (flags : Flags)
      (memory : Ram) (halted : Bool) : Disturbed { p with registers, flags, memory, halted }
  | called {p p' : Processor} (before : Disturbed p) (call : StackCall)
      (succeeds : call.action.run p = .ok () p') : Disturbed p'
  | refused {p p' : Processor} {fault : Fault} (before : Disturbed p) (call : StackCall)
      (fails : call.action.run p = .error fault p') : Disturbed p'

/-- **The program counter never leaves the memory and the place right behind it.** -/
theorem Processor.Disturbed.counter_le {p : Processor} (h : p.Disturbed) : p.counter ≤ ramSize := by
  induction h with
  | boot image => exact Nat.zero_le _
  | cycle channel before ih => exact Machine.counter_next_le channel ih
  | change before registers flags memory halted ih => exact ih
  | @called p p' before call succeeds ih =>
    obtain ⟨registers, memory, hc⟩ := call.checked_action p
    obtain ⟨-, rfl⟩ := hc.eq_of_ok succeeds
    exact ih
  | @refused p p' fault before call fails ih =>
    obtain ⟨registers, memory, hc⟩ := call.checked_action p
    obtain rfl := hc.eq_of_error fails
    exact ih

end ByteMachine
