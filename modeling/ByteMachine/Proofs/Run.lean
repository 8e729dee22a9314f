import Mathlib.Logic.Function.Iterate
import ByteMachine.Proofs.Cycle

/-!
# Runs

Cycle after cycle: those that go on whatever comes of each cycle, and those that carry out one
instruction after the other up to the first halt or fault.

* `Machine.failure?`, `Machine.next`, `Machine.after`: cycles, whatever comes of them.
* `Machine.Outcome`, **`Machine.outcome_eq`**: what comes of a cycle does not depend on the journal.
* `Machine.next_cases`, `Machine.next_of_accepts`: a cycle succeeds with the effect of an
  instruction, or fails and halts the processor.
* `Machine.Executes`: successful cycles, along with the instructions that they carry out.
* `Machine.Executes.runFor_add`, `Machine.Executes.runFor_eq_halted`: the run that consists of them.
-/

namespace ByteMachine

/-- The bytes of an instruction at the program counter: its code and its operands. -/
def Processor.instruction (p : Processor) (op : Opcode) : List UInt8 :=
  op.code :: (List.range' 1 op.operandCount).map p.peek

namespace Machine

variable {σ : Type}

/-! ## Cycles, whatever comes of them -/

section Cycles

variable (channel : Channel σ) (m : Machine σ)

/-- The fault of the next cycle, if it fails. -/
def failure? : Option Fault :=
  match (step channel).run m with
  | .ok _ _ => none
  | .error fault _ => some fault

/-- The machine after the next cycle, whether it fails or not. -/
def next : Machine σ :=
  match (step channel).run m with
  | .ok _ m' => m'
  | .error _ m' => m'

/-- The machine after `k` cycles, whether they fail or not. -/
def after (k : Nat) : Machine σ := (next channel)^[k] m

@[simp]
theorem after_zero : after channel m 0 = m := rfl

@[simp]
theorem after_one : after channel m 1 = next channel m := rfl

theorem after_succ (k : Nat) : after channel m (k + 1) = next channel (after channel m k) :=
  Function.iterate_succ_apply' _ _ _

/-! ## What comes of a cycle -/

/-- What comes of a cycle, the journal aside. -/
structure Outcome (σ : Type) where
  failure? : Option Fault
  processor : Processor
  output : σ

/-- The outcome of a cycle of a processor, read off the instruction table. -/
def outcome (p : Processor) (output : σ) : Outcome σ :=
  match p.decoded with
  | .error fault => ⟨some fault, { p with halted := true }, output⟩
  | .ok op =>
    match p.fault? op with
    | some fault => ⟨some fault, { p with halted := true }, output⟩
    | none =>
      match handOver channel output (p.printed? op) with
      | (output, none) => ⟨none, p.effect op, output⟩
      | (output, some reason) => ⟨some (.output reason), { p with halted := true }, output⟩

/-- **What comes of a cycle does not depend on the journal.** -/
theorem outcome_eq :
    outcome channel m.processor m.output =
      ⟨failure? channel m, (next channel m).processor, (next channel m).output⟩ := by
  unfold outcome failure? next
  cases hd : m.processor.decoded with
  | error fault =>
    rw [step_of_decoded_error hd]
    rfl
  | ok op =>
    dsimp only
    cases hf : m.processor.fault? op with
    | some fault =>
      rw [step_of_check_failed hd hf]
      rfl
    | none =>
      have hp : m.sighted.processor = m.processor := rfl
      have ho : m.sighted.output = m.output := rfl
      rw [step_of_checks_passed channel hd hf, performed, hp, ho]
      rcases handOver channel m.output (m.processor.printed? op) with ⟨output, _ | reason⟩ <;> rfl

end Cycles

variable {channel : Channel σ} {m m' : Machine σ}

theorem step_eq_ok_of_failure?_eq_none (h : failure? channel m = none) :
    (step channel).run m = .ok () (next channel m) := by
  unfold failure? at h
  unfold next
  split at h
  · rename_i heq
    rw [heq]
  · cases h

theorem step_eq_error_of_failure?_eq_some {fault : Fault} (h : failure? channel m = some fault) :
    (step channel).run m = .error fault (next channel m) := by
  unfold failure? at h
  unfold next
  split at h
  · cases h
  · rename_i heq
    cases h
    rw [heq]

/-- **A cycle succeeds with the effect of an instruction, or fails and halts the processor.** -/
theorem next_cases (channel : Channel σ) (m : Machine σ) :
    (failure? channel m = none ∧ ∃ op, m.processor.decoded = .ok op ∧ m.processor.fault? op = none ∧
      (next channel m).processor = m.processor.effect op) ∨
    ∃ fault, failure? channel m = some fault ∧
      (next channel m).processor = { m.processor with halted := true } := by
  unfold failure? next
  cases hs : (step channel).run m with
  | ok _ m' => exact .inl ⟨rfl, exists_of_step_ok hs⟩
  | error fault m' => exact .inr ⟨fault, rfl, processor_of_step_error hs⟩

theorem next_of_silent {op : Opcode} (hd : m.processor.decoded = .ok op)
    (hp : m.processor.printed? op = none) (hf : m.processor.fault? op = none) :
    failure? channel m = none ∧ (next channel m).processor = m.processor.effect op := by
  obtain ⟨m', hs, he⟩ := exists_step_ok hd hp channel hf
  unfold failure? next
  rw [hs]
  exact ⟨rfl, he⟩

theorem next_of_accepts (accepts : channel.Accepts) {op : Opcode}
    (hd : m.processor.decoded = .ok op) (hf : m.processor.fault? op = none) :
    failure? channel m = none ∧ (next channel m).processor = m.processor.effect op ∧
      (next channel m).output = (handOver channel m.output (m.processor.printed? op)).1 := by
  have hs := step_eq_table accepts m
  rw [hd] at hs
  dsimp only at hs
  rw [hf] at hs
  unfold failure? next
  rw [hs]
  exact ⟨rfl, rfl, rfl⟩

/-! ## Runs that carry out one instruction after the other -/

theorem runFor_of_halted (h : m.processor.halted = true) (fuel : Nat) :
    runFor channel fuel m = .halted { m with
      journal := m.journal.push
        (.logged (record .info ("Program halted at 0x" ++ Hex.upper m.processor.counter))) } := by
  unfold runFor
  rw [if_pos h]

theorem runFor_succ_of_step_ok (hr : m.processor.halted = false)
    (hs : (step channel).run m = .ok () m') (fuel : Nat) :
    runFor channel (fuel + 1) m = runFor channel fuel m' := by
  rw [runFor, if_neg (by rw [hr]; exact Bool.false_ne_true), hs]

theorem runFor_succ_of_success (running : m.processor.halted = false)
    (success : failure? channel m = none) (fuel : Nat) :
    runFor channel (fuel + 1) m = runFor channel fuel (next channel m) :=
  runFor_succ_of_step_ok running (step_eq_ok_of_failure?_eq_none success) fuel

theorem runFor_succ_of_failure (running : m.processor.halted = false) {fault : Fault}
    (fails : failure? channel m = some fault) (fuel : Nat) :
    runFor channel (fuel + 1) m = .faulted fault (next channel m) := by
  rw [runFor, if_neg (by rw [running]; exact Bool.false_ne_true),
    step_eq_error_of_failure?_eq_some fails]

/-- **Successful cycles** of a processor that has not halted before them, along with the
instructions that they carry out, each as its bytes in the memory. -/
inductive Executes (channel : Channel σ) : Machine σ → List (List UInt8) → Machine σ → Prop
  | refl (m : Machine σ) : Executes channel m [] m
  | cycle {m m' m'' : Machine σ} {op : Opcode} {instructions : List (List UInt8)}
      (running : m.processor.halted = false) (decoded : m.processor.decoded = .ok op)
      (success : (step channel).run m = .ok () m') (rest : Executes channel m' instructions m'') :
      Executes channel m (m.processor.instruction op :: instructions) m''

namespace Executes

variable {instructions : List (List UInt8)}

theorem trans {more : List (List UInt8)} {m'' : Machine σ}
    (h : Executes channel m instructions m') (h' : Executes channel m' more m'') :
    Executes channel m (instructions ++ more) m'' := by
  induction h with
  | refl => exact h'
  | cycle running decoded success _ ih => exact .cycle running decoded success (ih h')

theorem runFor_add (h : Executes channel m instructions m') (fuel : Nat) :
    runFor channel (instructions.length + fuel) m = runFor channel fuel m' := by
  induction h with
  | refl => rw [List.length_nil, Nat.zero_add]
  | cycle running decoded success _ ih =>
    rw [List.length_cons, Nat.add_right_comm, runFor_succ_of_step_ok running success, ih]

theorem runFor_eq_halted (h : Executes channel m instructions m')
    (halted : m'.processor.halted = true) {fuel : Nat} (enough : instructions.length ≤ fuel) :
    runFor channel fuel m = .halted { m' with
      journal := m'.journal.push
        (.logged (record .info ("Program halted at 0x" ++ Hex.upper m'.processor.counter))) } := by
  obtain ⟨spare, rfl⟩ := Nat.exists_eq_add_of_le enough
  rw [h.runFor_add, runFor_of_halted halted]

end Executes

end Machine

end ByteMachine
