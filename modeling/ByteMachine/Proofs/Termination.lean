import ByteMachine.Proofs.Counter
import ByteMachine.Proofs.Stack

/-!
# Runs that come to an end

A program may jump backwards and overwrite itself, and still its run ends if some number gets
smaller with every cycle. For a program that never takes a byte off the stack there is such a
number: what may still be pushed, and within that the distance of the program counter from the end
of the memory.

* `Machine.GetsTo`, `Machine.EndsWith`: the cycles that a run makes, and the last of them.
* `Machine.add_le_of_decreases`, **`Machine.endsWithin_of_decreases`**: a number that gets smaller
  with every cycle bounds the cycles.
* `Processor.KeepsStack`, **`Processor.potential_effect_lt`**: such a number.
* **`Machine.endsWithin_of_keepsStack`**: runs that never pop.
-/

namespace ByteMachine

/-! ## The end of a run -/

theorem Processor.eq_hlt_of_halted_effect {p : Processor} {op : Opcode} (running : p.halted = false)
    (halts : (p.effect op).halted = true) : op = .hlt := by
  cases op with
  | hlt => rfl
  | _ => exact absurd (running.symm.trans halts) Bool.false_ne_true

namespace Machine

variable {σ : Type}

section EndOfRun

variable (channel : Channel σ) (m : Machine σ)

/-- A run gets to cycle number `j`, counted from zero: no cycle before it fails, and the processor
has not halted by then. -/
def GetsTo (j : Nat) : Prop :=
  (∀ i < j, failure? channel (after channel m i) = none) ∧
    ∀ i ≤ j, (after channel m i).processor.halted = false

/-- **A run ends with cycle number `j`**, which halts the processor or fails. This is what the run
comes to, whatever number of cycles it might take beyond. -/
def EndsWith (j : Nat) : Prop :=
  GetsTo channel m j ∧
    ((after channel m j).processor.decoded = .ok .hlt ∧
        (∀ fuel, j < fuel → ∃ journal,
          runFor channel fuel m = .halted { after channel m (j + 1) with journal }) ∨
      ∃ fault, failure? channel (after channel m j) = some fault ∧
        ∀ fuel, j < fuel → runFor channel fuel m = .faulted fault (after channel m (j + 1)))

/-- A run ends within `n` cycles, or the processor has halted before it begins. -/
def EndsWithin (n : Nat) : Prop :=
  m.processor.halted = true ∨ ∃ j < n, EndsWith channel m j

end EndOfRun

variable {channel : Channel σ} {m : Machine σ} {j : Nat}

section Running

variable (running : m.processor.halted = false)
include running

theorem getsTo_zero : GetsTo channel m 0 := by
  refine ⟨fun i hi => absurd hi (Nat.not_lt_zero i), fun i hi => ?_⟩
  rw [Nat.le_zero.mp hi]
  exact running

section Success

variable (success : failure? channel m = none)
include success

theorem GetsTo.of_next (h : GetsTo channel (next channel m) j) : GetsTo channel m (j + 1) := by
  constructor
  · intro i hi
    cases i with
    | zero => exact success
    | succ i => exact h.1 i (Nat.lt_of_succ_lt_succ hi)
  · intro i hi
    cases i with
    | zero => exact running
    | succ i => exact h.2 i (Nat.le_of_succ_le_succ hi)

theorem EndsWith.of_next (h : EndsWith channel (next channel m) j) :
    EndsWith channel m (j + 1) := by
  refine ⟨h.1.of_next running success, ?_⟩
  have shift (fuel : Nat) (hj : j + 1 < fuel) :
      ∃ less, j < less ∧ runFor channel fuel m = runFor channel less (next channel m) := by
    obtain ⟨less, rfl⟩ := Nat.exists_eq_add_of_lt (Nat.zero_lt_of_lt hj)
    rw [Nat.zero_add] at hj ⊢
    exact ⟨less, Nat.lt_of_succ_lt_succ hj, runFor_succ_of_success running success less⟩
  obtain ⟨hd, hr⟩ | ⟨fault, hf, hr⟩ := h.2
  · refine .inl ⟨hd, fun fuel hj => ?_⟩
    obtain ⟨less, hl, he⟩ := shift fuel hj
    rw [he]
    exact hr less hl
  · refine .inr ⟨fault, hf, fun fuel hj => ?_⟩
    obtain ⟨less, hl, he⟩ := shift fuel hj
    rw [he]
    exact hr less hl

theorem decoded_of_halted_next (halts : (next channel m).processor.halted = true) :
    m.processor.decoded = .ok .hlt := by
  obtain ⟨-, op, hd, -, he⟩ | ⟨fault, hf, -⟩ := next_cases channel m
  · rw [he] at halts
    rw [hd, Processor.eq_hlt_of_halted_effect running halts]
  · rw [success] at hf
    cases hf

theorem endsWith_of_halted (halts : (next channel m).processor.halted = true) :
    EndsWith channel m 0 := by
  refine ⟨getsTo_zero running,
    .inl ⟨decoded_of_halted_next running success halts, fun fuel hj => ?_⟩⟩
  obtain ⟨less, rfl⟩ := Nat.exists_eq_add_of_lt hj
  rw [Nat.zero_add, runFor_succ_of_success running success]
  exact ⟨_, runFor_of_halted halts less⟩

end Success

theorem endsWith_of_failure {fault : Fault} (fails : failure? channel m = some fault) :
    EndsWith channel m 0 := by
  refine ⟨getsTo_zero running, .inr ⟨fault, fails, fun fuel hj => ?_⟩⟩
  obtain ⟨less, rfl⟩ := Nat.exists_eq_add_of_lt hj
  rw [Nat.zero_add, runFor_succ_of_failure running fails, Nat.zero_add, after_one]

end Running

theorem EndsWithin.mono {n n' : Nat} (h : EndsWithin channel m n) (hn : n ≤ n') :
    EndsWithin channel m n' :=
  h.imp_right fun ⟨j, hj, ends⟩ => ⟨j, Nat.lt_of_lt_of_le hj hn, ends⟩

/-! ## A number that gets smaller -/

section Decreases

variable (μ : Processor → Nat)

theorem add_le_of_decreases {k : Nat}
    (decreases : ∀ j < k, μ (after channel m (j + 1)).processor < μ (after channel m j).processor) :
    k + μ (after channel m k).processor ≤ μ m.processor := by
  induction k with
  | zero =>
    rw [Nat.zero_add]
    exact Nat.le_refl _
  | succ k ih =>
    have := ih fun j hj => decreases j (Nat.lt_succ_of_lt hj)
    have := decreases k (Nat.lt_succ_self k)
    omega

/-- **A run ends if a number gets smaller with every cycle that succeeds.** -/
theorem endsWithin_of_decreases
    (decreases : ∀ j, GetsTo channel m j → failure? channel (after channel m j) = none →
      μ (after channel m (j + 1)).processor < μ (after channel m j).processor) :
    EndsWithin channel m (μ m.processor + 1) := by
  induction hn : μ m.processor using Nat.strongRecOn generalizing m with
  | ind n ih =>
    by_cases running : m.processor.halted = true
    · exact .inl running
    rw [Bool.not_eq_true] at running
    cases hf : failure? channel m with
    | some fault => exact .inr ⟨0, Nat.zero_lt_succ n, endsWith_of_failure running hf⟩
    | none =>
      have less := decreases 0 (getsTo_zero running) hf
      rw [Nat.zero_add, after_one, after_zero, hn] at less
      obtain halts | ⟨j, hj, ends⟩ := ih _ less
        (fun j hj => decreases (j + 1) (hj.of_next running hf)) rfl
      · exact .inr ⟨0, Nat.zero_lt_succ n, endsWith_of_halted running hf halts⟩
      · exact .inr ⟨j + 1, by omega, ends.of_next running hf⟩

end Decreases

end Machine

/-! ## Programs that never pop -/

namespace Processor

variable {p : Processor} {op : Opcode}

/-- What is on the stack stays there: the next instruction takes nothing off, and does not store
into the stack pointer by name. -/
def KeepsStack (p : Processor) : Prop :=
  ∀ op, p.decoded = .ok op → ¬ op.Pops ∧ ¬ p.NamesStackPointer op

/-- How many bytes may still be pushed. -/
def room (p : Processor) : Nat :=
  if p.registers.stackPointer ≤ stackTop then p.registers.stackPointer.toNat else 0

/-- What may still be pushed, and within that the distance to the end of the memory. A jump may use
up one byte of the stack and give back the whole distance. -/
def potential (p : Processor) : Nat := (ramSize + 1) * p.room + (ramSize - p.counter)

theorem potential_le (p : Processor) : p.potential ≤ 62964 := by
  have hr : p.room ≤ 244 := by
    unfold room
    split_ifs with h
    · exact UInt8.le_iff_toNat_le.mp h
    · exact Nat.zero_le _
  unfold potential ramSize
  omega

theorem room_effect_of_pushes (hf : p.fault? op = none) (hn : ¬ p.NamesStackPointer op)
    (hp : op.Pushes) : (p.effect op).room + 1 = p.room := by
  have hc := canPush_of_fault?_eq_none hf hp
  have hsp : (p.effect op).registers.stackPointer = p.registers.stackPointer - 1 := by
    rw [stackPointer_effect hn, if_pos hp]
  have hle : p.registers.stackPointer - 1 ≤ stackTop := by
    rw [UInt8.le_iff_toNat_le, toNat_sub_one hc]
    exact Nat.le_trans (Nat.sub_le _ _) (canPush_iff.mp hc).2
  rw [room, room, hsp, if_pos hle, if_pos hc.2, toNat_sub_one hc]
  exact Nat.sub_add_cancel (canPush_iff.mp hc).1

theorem room_effect_of_neither (hn : ¬ p.NamesStackPointer op) (hpush : ¬ op.Pushes)
    (hpop : ¬ op.Pops) : (p.effect op).room = p.room := by
  rw [room, stackPointer_effect hn, if_neg hpush, if_neg hpop, room]

/-- **An instruction that keeps the stack lowers the potential.** -/
theorem potential_effect_lt (hd : p.decoded = .ok op) (hf : p.fault? op = none)
    (hk : p.KeepsStack) : (p.effect op).potential < p.potential := by
  obtain ⟨hpop, hn⟩ := hk op hd
  have hc := counter_add_operandCount_lt hd hf
  unfold potential
  cases hs : op.setsCounter with
  | true =>
    have hcall : op = .call := (op.setsCounter_iff.mp hs).resolve_right fun h => hpop (.inr h)
    have hr := room_effect_of_pushes hf hn (.inr hcall)
    rw [← hr, Nat.mul_add]
    omega
  | false =>
    have hr : (p.effect op).room ≤ p.room := by
      by_cases hpush : op.Pushes
      · exact Nat.le_of_lt (Nat.lt_of_succ_le (Nat.le_of_eq (room_effect_of_pushes hf hn hpush)))
      · exact Nat.le_of_eq (room_effect_of_neither hn hpush hpop)
    have he : (p.effect op).counter = p.counter + op.operandCount + 1 := counterAfter_eq hs
    rw [he]
    have := Nat.mul_le_mul_left (ramSize + 1) hr
    omega

end Processor

namespace Machine

variable {σ : Type}

theorem potential_next_lt {channel : Channel σ} {m : Machine σ} (hf : failure? channel m = none)
    (hk : m.processor.KeepsStack) : (next channel m).processor.potential < m.processor.potential := by
  obtain ⟨-, op, hd, hf', he⟩ | ⟨fault, hf', -⟩ := next_cases channel m
  · rw [he]
    exact Processor.potential_effect_lt hd hf' hk
  · rw [hf] at hf'
    cases hf'

/-- **Runs that never pop come to an end.** -/
theorem endsWithin_of_keepsStack (channel : Channel σ) (m : Machine σ) :
    (∀ k, (∀ j < k, failure? channel (after channel m j) = none ∧
        (after channel m j).processor.KeepsStack) → k ≤ 244 * 257 + 256) ∧
      ((∀ j, GetsTo channel m j → failure? channel (after channel m j) = none →
          (after channel m j).processor.KeepsStack) → EndsWithin channel m 62965) := by
  have bound := m.processor.potential_le
  constructor
  · intro k h
    have := add_le_of_decreases Processor.potential fun j hj => by
      rw [after_succ]
      exact potential_next_lt (h j hj).1 (h j hj).2
    omega
  · intro h
    have ends := endsWithin_of_decreases Processor.potential fun j hj hf => by
      rw [after_succ]
      exact potential_next_lt hf (h j hj hf)
    exact ends.mono (by omega)

/-- A call through the stack pointer, which leads to a byte that is no operation. -/
theorem endsWithin_of_keepsStack_call :
    let m := loaded [0x50, 0x07]
    (∀ j < 1, failure? .unbounded (after .unbounded m j) = none ∧
      (after .unbounded m j).processor.KeepsStack) ∧ 1 ≤ 244 * 257 + 256 ∧
      EndsWithin .unbounded m 62965 := by
  intro m
  have hd : m.processor.decoded = .ok .call :=
    Processor.decoded_eq_ok_iff.mpr (by decide +kernel)
  have hf : m.processor.fault? .call = none := by decide +kernel
  obtain ⟨success, called, -⟩ := next_of_accepts Channel.accepts_unbounded hd hf
  have keeps : m.processor.KeepsStack := by
    intro op hd'
    obtain rfl := Except.ok.inj (hd.symm.trans hd')
    exact ⟨by decide, fun names => absurd names.1 (by decide)⟩
  have fails : failure? .unbounded (after .unbounded m 1) ≠ none := by
    rw [after_one]
    obtain ⟨-, op, hd', -⟩ | ⟨fault, hf', -⟩ := next_cases .unbounded (next .unbounded m)
    · rw [Processor.decoded_eq_ok_iff, called] at hd'
      have zero : (m.processor.effect .call).memory.get? (m.processor.effect .call).counter =
          some 0 := by decide +kernel
      rw [zero, Option.some.injEq] at hd'
      exact absurd hd' (by cases op <;> decide)
    · rw [hf']
      exact Option.some_ne_none fault
  have first : ∀ j < 1, failure? .unbounded (after .unbounded m j) = none ∧
      (after .unbounded m j).processor.KeepsStack := by
    intro j hj
    obtain rfl := Nat.lt_one_iff.mp hj
    exact ⟨success, keeps⟩
  obtain ⟨bound, ends⟩ := endsWithin_of_keepsStack .unbounded m
  refine ⟨first, bound 1 first, ends fun j gets hj => ?_⟩
  obtain rfl | rfl | more : j = 0 ∨ j = 1 ∨ 1 < j := by omega
  · exact keeps
  · exact absurd hj fails
  · exact absurd (gets.1 1 more) fails

end Machine

end ByteMachine
