import ByteMachine.Proofs.Stack

/-!
# Calls and returns

A call puts the address of the next instruction on the stack. As long as the stack pointer does not
rise above that byte, nothing can overwrite it, so the return that finds the stack pointer there
again goes on behind the call.

* `Machine.RunBelow`: runs that keep the stack pointer at or below an address.
* **`Machine.RunBelow.get?_memory`**: they change nothing at that address or above.
* **`Machine.step_ret_of_call`**: the return to the caller.
-/

namespace ByteMachine

namespace Processor

variable {p : Processor}

theorem counter_add_two_le (h : p.fault? .call = none) : p.counter + 2 ≤ 255 := by
  rw [fault?_eq] at h
  simp only [Option.or_eq_none_iff, returnCheck, Fault.unless_eq_none_iff] at h
  exact h.2.2.1

theorem get?_memory_effect_call (p : Processor) :
    (p.effect .call).memory.get? (p.registers.stackPointer - 1).toNat =
      some (UInt8.ofNat (p.counter + 2)) :=
  Memory.get?_set_self (toNat_lt_ramSize _) _

end Processor

namespace Machine

variable {σ : Type} {channel : Channel σ}

/-- The stack pointer as an address. -/
def stackAddress (m : Machine σ) : Nat := m.processor.registers.stackPointer.toNat

/-- **Runs of successful cycles** that keep the stack pointer at or below an address, from the first
state to the last. -/
inductive RunBelow (channel : Channel σ) (bound : Nat) : Machine σ → Machine σ → Prop
  | refl {m : Machine σ} (below : m.stackAddress ≤ bound) : RunBelow channel bound m m
  | cycle {m m' m'' : Machine σ} (run : RunBelow channel bound m m')
      (success : (step channel).run m' = .ok () m'') (below : m''.stackAddress ≤ bound) :
      RunBelow channel bound m m''

namespace RunBelow

variable {bound : Nat} {m m' : Machine σ}

theorem below_end (h : RunBelow channel bound m m') : m'.stackAddress ≤ bound := by
  cases h with
  | refl below => exact below
  | cycle run success below => exact below

/-- **A run below an address changes nothing there or above.** -/
theorem get?_memory (h : RunBelow channel bound m m') {address : Nat} (ha : bound ≤ address) :
    m'.processor.memory.get? address = m.processor.memory.get? address := by
  induction h with
  | refl below => rfl
  | cycle run success below ih =>
    obtain ⟨op, -, hf, he⟩ := exists_of_step_ok success
    -- the stack pointer that counts is the one before the cycle
    have hs := run.below_end
    rw [← ih, he]
    exact Processor.memory_effect_of_le hf (Nat.le_trans hs ha)

end RunBelow

/-- **A subroutine returns to its caller.** Between a call and the return that finds the stack
pointer where the call left it, anything may happen below that byte. -/
theorem step_ret_of_call {m m₁ m₂ : Machine σ} (hc : m.processor.decoded = .ok .call)
    (hs : (step channel).run m = .ok () m₁)
    (hrun : RunBelow channel (m.stackAddress - 1) m₁ m₂)
    (hsp : m₂.stackAddress = m.stackAddress - 1) (hr : m₂.processor.decoded = .ok .ret) :
    ∃ m₃, (step channel).run m₂ = .ok () m₃ ∧
      m₃.processor.counter = m.processor.counter + 2 ∧ m₃.stackAddress = m.stackAddress ∧
      ∀ address, m.stackAddress - 1 ≤ address →
        m₃.processor.memory.get? address = m₁.processor.memory.get? address := by
  obtain ⟨hf, he⟩ := of_step_ok hc hs
  have hpush := Processor.canPush_of_fault?_eq_none hf (.inr rfl)
  have hback := Processor.counter_add_two_le hf
  have hsub := Processor.toNat_sub_one hpush
  rw [Processor.canPush_iff] at hpush
  -- the byte on top of the stack is still the one that the call has put there
  have htop : m₂.processor.topByte = UInt8.ofNat (m.processor.counter + 2) := by
    have hmem := hrun.get?_memory (Nat.le_refl _)
    rw [he] at hmem
    unfold stackAddress at hmem hsp
    rw [← hsub, Processor.get?_memory_effect_call] at hmem
    rw [Processor.topByte, hsp, ← hsub, Memory.byte, hmem, Option.getD_some]
  have hpop : m₂.processor.CanPop := by
    rw [Processor.canPop_iff]
    unfold stackAddress at hsp
    omega
  have hf₂ : m₂.processor.fault? .ret = none := by
    rw [Processor.fault?_eq]
    exact Fault.unless_of_pos hpop
  obtain ⟨m₃, hs₃, he₃⟩ := exists_step_ok hr rfl channel hf₂
  refine ⟨m₃, hs₃, ?_, ?_, ?_⟩
  · rw [he₃]
    change m₂.processor.topByte.toNat = _
    rw [htop, UInt8.toNat_ofNat']
    omega
  · have hsp₃ : m₃.processor.registers.stackPointer =
        m₂.processor.registers.stackPointer + 1 := by
      rw [he₃]
      exact Registers.stackPointer_setStackPointer _
    unfold stackAddress at hsp ⊢
    rw [hsp₃, Processor.toNat_add_one hpop]
    omega
  · intro address ha
    rw [← hrun.get?_memory ha, he₃]
    rfl

/-- A call at address 5 of a subroutine at address 0 that pushes a register and pops it again. -/
theorem step_ret_of_call_push_pop :
    ∃ m m₁ m₂ m₃ : Machine String, m.processor.decoded = .ok .call ∧
      (step .unbounded).run m = .ok () m₁ ∧
      RunBelow .unbounded (m.stackAddress - 1) m₁ m₂ ∧
      m₁.processor.counter = 0 ∧ m₂.processor.counter = 4 ∧
      m₂.stackAddress = m.stackAddress - 1 ∧ m₂.processor.decoded = .ok .ret ∧
      (step .unbounded).run m₂ = .ok () m₃ ∧ m₃.processor.counter = 7 ∧
      m₃.stackAddress = m.stackAddress ∧
      ∀ address, m.stackAddress - 1 ≤ address →
        m₃.processor.memory.get? address = m₁.processor.memory.get? address := by
  let p := { (loaded [0x45, 1, 0x46, 1, 0x11, 0x50, 0]).processor with counter := 5 }
  let m : Machine String := ⟨p, "", #[]⟩
  have hd : m.processor.decoded = .ok .call :=
    Processor.decoded_eq_ok_iff.mpr (by decide +kernel)
  obtain ⟨m₁, hs, h₁⟩ := exists_step_ok hd rfl .unbounded (by decide +kernel)
  have hd₁ : m₁.processor.decoded = .ok .push :=
    Processor.decoded_eq_ok_iff.mpr (by rw [h₁]; decide +kernel)
  obtain ⟨m', hs₁, h'⟩ := exists_step_ok hd₁ rfl .unbounded (by rw [h₁]; decide +kernel)
  rw [h₁] at h'
  have hd' : m'.processor.decoded = .ok .pop :=
    Processor.decoded_eq_ok_iff.mpr (by rw [h']; decide +kernel)
  obtain ⟨m₂, hs', h₂⟩ := exists_step_ok hd' rfl .unbounded (by rw [h']; decide +kernel)
  rw [h'] at h₂
  have hd₂ : m₂.processor.decoded = .ok .ret :=
    Processor.decoded_eq_ok_iff.mpr (by rw [h₂]; decide +kernel)
  have hsp : m₂.stackAddress = m.stackAddress - 1 := by
    unfold stackAddress
    rw [h₂]
    decide +kernel
  have hrun : RunBelow .unbounded (m.stackAddress - 1) m₁ m₂ := by
    refine .cycle (.cycle (.refl ?_) hs₁ ?_) hs' (Nat.le_of_eq hsp) <;> unfold stackAddress
    · rw [h₁]
      decide +kernel
    · rw [h']
      decide +kernel
  have hcounter₁ : m₁.processor.counter = 0 := by
    rw [h₁]
    decide +kernel
  have hcounter₂ : m₂.processor.counter = 4 := by
    rw [h₂]
    decide +kernel
  obtain ⟨m₃, hs₂, hcounter, hsp₃, hmem⟩ := step_ret_of_call hd hs hrun hsp hd₂
  exact ⟨m, m₁, m₂, m₃, hd, hs, hrun, hcounter₁, hcounter₂, hsp, hd₂, hs₂, hcounter, hsp₃, hmem⟩

end Machine

end ByteMachine
