import ByteMachine.Proofs.Termination

/-!
# Runs without jumps

Only a call and a return set the program counter themselves. Every other instruction goes on behind
its last byte, which lies in the memory, so that the program counter moves forward and comes to the
end of the memory before long. Whatever a program does to its stack pointer or to its own code, it
has to jump to go on for longer than that.

* `Machine.Jumps`, `Machine.GoesForward`: cycles that carry out a call or a return, and other cycles
  that carry out an instruction.
* `Machine.counter_next_of_goesForward`, `Machine.counter_add_le_after`: one such cycle, and some.
* `Machine.length_le_of_goesForward`: how many of them there is room for.
* **`Machine.endsWithin_of_goesForward`**: cycles without a jump, and runs without one.
-/

namespace ByteMachine

theorem Processor.counterAfter_bounds {p : Processor} {op : Opcode} (h : op.setsCounter = false) :
    p.counter + 1 ≤ p.counterAfter op ∧ p.counterAfter op ≤ p.counter + 3 := by
  have hw := op.width_le
  have hc : p.counterAfter op = p.counter + (op.operandCount + 1) := counterAfter_eq h
  unfold Opcode.width at hw
  omega

namespace Machine

variable {σ : Type}

section Jumps

variable (channel : Channel σ) (m : Machine σ)

/-- The next cycle carries out a call or a return. -/
def Jumps : Prop :=
  failure? channel m = none ∧
    (m.processor.decoded = .ok .call ∨ m.processor.decoded = .ok .ret)

/-- The next cycle carries out an instruction, but neither a call nor a return. -/
def GoesForward : Prop := failure? channel m = none ∧ ¬ Jumps channel m

end Jumps

variable {channel : Channel σ} {m : Machine σ}

/-! ## Cycles without a jump -/

/-- **A cycle without a jump moves the program counter forward**, past one to three bytes. -/
theorem counter_next_of_goesForward (h : GoesForward channel m) :
    m.processor.counter + 1 ≤ (next channel m).processor.counter ∧
      (next channel m).processor.counter ≤ m.processor.counter + 3 := by
  obtain ⟨success, stays⟩ := h
  obtain ⟨-, op, hd, -, he⟩ | ⟨fault, hf, -⟩ := next_cases channel m
  · have hs : op.setsCounter = false := by
      by_contra sets
      rw [Bool.not_eq_false, Opcode.setsCounter_iff] at sets
      obtain rfl | rfl := sets
      · exact stays ⟨success, .inl hd⟩
      · exact stays ⟨success, .inr hd⟩
    rw [he]
    exact Processor.counterAfter_bounds hs
  · rw [success] at hf
    cases hf

theorem counter_add_le_after {i k : Nat}
    (h : ∀ j, i ≤ j → j < i + k → GoesForward channel (after channel m j)) :
    (after channel m i).processor.counter + k ≤ (after channel m (i + k)).processor.counter := by
  induction k with
  | zero => exact Nat.le_refl _
  | succ k ih =>
    have before := ih fun j low high => h j low (Nat.lt_succ_of_lt high)
    have last := (counter_next_of_goesForward (h (i + k) (by omega) (by omega))).1
    calc (after channel m i).processor.counter + (k + 1)
        ≤ (after channel m (i + k)).processor.counter + 1 := Nat.succ_le_succ before
      _ ≤ (next channel (after channel m (i + k))).processor.counter := last
      _ = (after channel m (i + (k + 1))).processor.counter := by rw [← Nat.add_assoc, after_succ]

theorem length_le_of_goesForward (inside : m.processor.counter ≤ ramSize) {i k : Nat}
    (h : ∀ j, i ≤ j → j < i + k → GoesForward channel (after channel m j)) :
    k ≤ ramSize - (after channel m i).processor.counter := by
  have moved := counter_add_le_after h
  have bound := counter_after_le channel inside (i + k)
  omega

/-! ## Runs without a jump -/

/-- **Only calls and returns let a program run on.** Cycles without them move the program counter
forward each time, so that there are no more of them than bytes up to the end of the memory. In a run
at most 256 cycles lie between two jumps, and a run without a jump ends within 257 cycles. -/
theorem endsWithin_of_goesForward (channel : Channel σ) (m : Machine σ)
    (inside : m.processor.counter ≤ ramSize) :
    (∀ k, (∀ j < k, GoesForward channel (after channel m j)) →
        (∀ j < k, (after channel m j).processor.counter + 1 ≤
            (after channel m (j + 1)).processor.counter ∧
          (after channel m (j + 1)).processor.counter ≤
            (after channel m j).processor.counter + 3) ∧
        k ≤ 256 - m.processor.counter) ∧
    (∀ i j, GetsTo channel m j → (∀ l, i < l → l < j → ¬ Jumps channel (after channel m l)) →
        j - (i + 1) ≤ 256) ∧
    ((∀ j, GetsTo channel m j → ¬ Jumps channel (after channel m j)) →
      EndsWithin channel m 257) := by
  refine ⟨fun k forward => ⟨fun j hj => ?_, ?_⟩, fun i j gets between => ?_, fun never => ?_⟩
  · rw [after_succ]
    exact counter_next_of_goesForward (forward j hj)
  · rw [← Nat.zero_add k] at forward
    exact length_le_of_goesForward inside fun j _ hj => forward j hj
  · have few : j - (i + 1) ≤ ramSize - (after channel m (i + 1)).processor.counter := by
      refine length_le_of_goesForward inside fun l low high => ⟨?_, between l low (by omega)⟩
      exact gets.1 l (by omega)
    exact Nat.le_trans few (Nat.sub_le _ _)
  · have ends := endsWithin_of_decreases (fun p => ramSize - p.counter) fun j gets success => by
      have moved := (counter_next_of_goesForward ⟨success, never j gets⟩).1
      have bound := counter_after_le channel inside (j + 1)
      rw [after_succ] at bound ⊢
      omega
    exact ends.mono (by unfold ramSize; omega)

/-- A program that stores a halt instruction right behind itself, and one that calls a subroutine. -/
theorem endsWithin_of_goesForward_overwritten :
    let m := loaded [0x82, 0x00, 0x01, 0x82, 0x07, 0x09, 0x45, 0x00]
    let m' := loaded [0x82, 0x01, 0x06, 0x50, 0x01, 0x01, 0x82, 0x00, 0x07, 0x11]
    m.processor.counter ≤ ramSize ∧
      (∀ j < 4, GoesForward .unbounded (after .unbounded m j)) ∧ 4 ≤ 256 - m.processor.counter ∧
      (∀ j, GetsTo .unbounded m j → ¬ Jumps .unbounded (after .unbounded m j)) ∧
      EndsWithin .unbounded m 257 ∧
      Jumps .unbounded (after .unbounded m' 1) ∧ GetsTo .unbounded m' 3 ∧
      (∀ l, 1 < l → l < 3 → ¬ Jumps .unbounded (after .unbounded m' l)) ∧ 3 - (1 + 1) ≤ 256 := by
  intro m m'
  have forward : ∀ j < 4, GoesForward .unbounded (after .unbounded m j) := by
    unfold GoesForward Jumps
    decide +kernel
  have halted : (after .unbounded m 4).processor.halted = true := by decide +kernel
  have never : ∀ j, GetsTo .unbounded m j → ¬ Jumps .unbounded (after .unbounded m j) := by
    intro j gets
    by_cases hj : j < 4
    · exact (forward j hj).2
    · exact absurd (halted.symm.trans (gets.2 4 (Nat.le_of_not_lt hj))) (by decide)
  have gets : GetsTo .unbounded m' 3 := by
    unfold GetsTo
    decide +kernel
  have between : ∀ l, 1 < l → l < 3 → ¬ Jumps .unbounded (after .unbounded m' l) := by
    intro l low high
    obtain rfl : l = 2 := by omega
    unfold Jumps
    decide +kernel
  have called : Jumps .unbounded (after .unbounded m' 1) := by
    unfold Jumps
    decide +kernel
  obtain ⟨stretch, -, ends⟩ := endsWithin_of_goesForward .unbounded m (Nat.zero_le _)
  obtain ⟨-, gap, -⟩ := endsWithin_of_goesForward .unbounded m' (Nat.zero_le _)
  exact ⟨Nat.zero_le _, forward, (stretch 4 forward).2, never, ends never, called, gets, between,
    gap 1 3 gets between⟩

end Machine

end ByteMachine
