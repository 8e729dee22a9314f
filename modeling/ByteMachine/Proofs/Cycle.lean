import ByteMachine.Proofs.Instruction

/-!
# One cycle

What a cycle comes to, read off the instruction table, and what a fault leaves behind.

* `Machine.sighted`, `Machine.faulted`: the machine after the fetch, and after a fault.
* `Machine.run_step`: a cycle fails to fetch, fails a check or does what its row of the table says.
* `Machine.exists_of_step_ok`, `Machine.processor_of_step_error`: a cycle that succeeds, and one
  that fails.
* **`Machine.step_eq_table`**: the cycle of a machine whose output takes everything.
* **`Machine.processor_of_error`**: what fails changes nothing, on any output channel.
-/

namespace ByteMachine

/-- A channel that takes every text. -/
def Channel.Accepts {σ : Type} (channel : Channel σ) : Prop :=
  ∀ taken text, (channel.write taken text).2 = none

theorem Channel.accepts_unbounded : unbounded.Accepts := fun _ _ => rfl

namespace Machine

variable {σ : Type} {channel : Channel σ} {m m' : Machine σ} {op : Opcode} {fault : Fault}

/-- The machine once its state was noted in the log. -/
def sighted (m : Machine σ) : Machine σ :=
  { m with journal := m.journal.push (.logged (record .trace m.processor.trace)) }

/-- The machine after a fault. -/
def faulted (fault : Fault) (m : Machine σ) : Machine σ :=
  { m with
    processor := { m.processor with halted := true }
    journal := m.journal.push (.logged (record .debug
      ("Processor fault at 0x" ++ Hex.upper m.processor.counter ++ ": " ++ fault.message))) }

/-- A machine with a program in its memory, from address zero on, before the first cycle. -/
def loaded (program : List UInt8) : Machine String where
  processor := .boot (program.zipIdx.foldl
    (fun memory (byte, address) => memory.set address byte) (Memory.zero ramSize))
  output := ""

/-! ## The result of the instruction -/

section Performed

theorem performed_of_handOver (h : (handOver channel m.output (m.processor.printed? op)).2 = none) :
    performed channel m op =
      .ok () ⟨m.processor.effect op, (handOver channel m.output (m.processor.printed? op)).1,
        (entries op m.processor).foldl Array.push m.journal⟩ := by
  unfold performed
  split
  · rename_i heq
    rw [heq]
  · rename_i heq
    rw [heq] at h
    cases h

theorem performed_of_refused {output : σ} {reason : String}
    (h : handOver channel m.output (m.processor.printed? op) = (output, some reason)) :
    performed channel m op = .error (.output reason) { m with output } := by
  rw [performed, h]

theorem processor_of_performed_ok (h : performed channel m op = .ok () m') :
    m'.processor = m.processor.effect op := by
  unfold performed at h
  split at h <;> cases h
  rfl

theorem processor_of_performed_error (h : performed channel m op = .error fault m') :
    m'.processor = m.processor := by
  unfold performed at h
  split at h <;> cases h
  rfl

theorem handOver_of_accepts (h : channel.Accepts) (output : σ) (text? : Option String) :
    (handOver channel output text?).2 = none := by
  cases text? with
  | none => rfl
  | some text => exact h output text

end Performed

/-! ## The three ways of a cycle -/

theorem run_fetch (m : Machine σ) :
    (liftM Processor.fetch : Action (Machine σ) Opcode).run m =
      match m.processor.decoded with
      | .ok op => .ok op m
      | .error fault => .error fault m := by
  change (onProcessor Processor.fetch).run m = _
  rw [run_onProcessor, Processor.run_fetch]
  cases m.processor.decoded <;> rfl

theorem run_cycle (channel : Channel σ) (m : Machine σ) :
    (cycle channel).run m =
      match m.processor.decoded with
      | .ok op => (execute channel op).run m.sighted
      | .error fault => .error fault m := by
  unfold cycle
  rw [EStateM.run_bind, run_fetch]
  cases m.processor.decoded <;> rfl

theorem run_step (channel : Channel σ) (m : Machine σ) :
    (step channel).run m =
      match (cycle channel).run m with
      | .ok _ m' => .ok () m'
      | .error fault m' => .error fault (m'.faulted fault) := by
  unfold step
  rw [Action.run_tryCatch]
  cases (cycle channel).run m <;> rfl

theorem step_of_decoded_error (hd : m.processor.decoded = .error fault) :
    (step channel).run m = .error fault (m.faulted fault) := by
  rw [run_step, run_cycle, hd]

theorem step_of_check_failed (hd : m.processor.decoded = .ok op)
    (hf : m.processor.fault? op = some fault) :
    (step channel).run m = .error fault (m.sighted.faulted fault) := by
  have h : (execute channel op).run m.sighted = .error fault m.sighted :=
    (checked_execute channel m.sighted op).run_of_failed hf
  rw [run_step, run_cycle, hd]
  dsimp only
  rw [h]

theorem step_of_checks_passed (channel : Channel σ) (hd : m.processor.decoded = .ok op)
    (hf : m.processor.fault? op = none) :
    (step channel).run m =
      match performed channel m.sighted op with
      | .ok _ m' => .ok () m'
      | .error fault m' => .error fault (m'.faulted fault) := by
  have h : (execute channel op).run m.sighted = performed channel m.sighted op :=
    (checked_execute channel m.sighted op).run_of_passed hf
  rw [run_step, run_cycle, hd]
  dsimp only
  rw [h]

/-! ## Cycles that succeed and cycles that fail -/

theorem processor_of_execute_error (h : (execute channel op).run m = .error fault m') :
    m'.processor = m.processor := by
  cases hf : m.processor.fault? op with
  | some other =>
    rw [(checked_execute channel m op).run_of_failed hf] at h
    cases h
    rfl
  | none =>
    rw [(checked_execute channel m op).run_of_passed hf] at h
    exact processor_of_performed_error h

theorem exists_of_step_ok (h : (step channel).run m = .ok () m') :
    ∃ op, m.processor.decoded = .ok op ∧ m.processor.fault? op = none ∧
      m'.processor = m.processor.effect op := by
  cases hd : m.processor.decoded with
  | error fault =>
    rw [step_of_decoded_error hd] at h
    cases h
  | ok op =>
    cases hf : m.processor.fault? op with
    | some fault =>
      rw [step_of_check_failed hd hf] at h
      cases h
    | none =>
      rw [step_of_checks_passed channel hd hf] at h
      split at h
      · rename_i hp
        cases h
        have he := processor_of_performed_ok hp
        exact ⟨op, rfl, hf, he⟩
      · cases h

theorem of_step_ok (hd : m.processor.decoded = .ok op) (h : (step channel).run m = .ok () m') :
    m.processor.fault? op = none ∧ m'.processor = m.processor.effect op := by
  obtain ⟨op', hd', hf, he⟩ := exists_of_step_ok h
  obtain rfl := Except.ok.inj (hd.symm.trans hd')
  exact ⟨hf, he⟩

theorem processor_of_step_error (h : (step channel).run m = .error fault m') :
    m'.processor = { m.processor with halted := true } := by
  cases hd : m.processor.decoded with
  | error fault =>
    rw [step_of_decoded_error hd] at h
    cases h
    rfl
  | ok op =>
    cases hf : m.processor.fault? op with
    | some fault =>
      rw [step_of_check_failed hd hf] at h
      cases h
      rfl
    | none =>
      rw [step_of_checks_passed channel hd hf] at h
      split at h
      · cases h
      · rename_i hp
        cases h
        rw [faulted, processor_of_performed_error hp]
        rfl

section Silent

variable (hd : m.processor.decoded = .ok op) (hp : m.processor.printed? op = none)
include hd hp

theorem exists_step_ok (channel : Channel σ) (hf : m.processor.fault? op = none) :
    ∃ m', (step channel).run m = .ok () m' ∧ m'.processor = m.processor.effect op := by
  have h : (handOver channel m.sighted.output (m.sighted.processor.printed? op)).2 = none := by
    rw [sighted, hp]
    rfl
  rw [step_of_checks_passed channel hd hf, performed_of_handOver h]
  exact ⟨_, rfl, rfl⟩

theorem exists_step_error_iff :
    (∃ m', (step channel).run m = .error fault m') ↔ m.processor.fault? op = some fault := by
  constructor
  · rintro ⟨m', h⟩
    cases hf : m.processor.fault? op with
    | some other =>
      rw [step_of_check_failed hd hf] at h
      cases h
      rfl
    | none =>
      obtain ⟨m'', h', -⟩ := exists_step_ok hd hp channel hf
      rw [h'] at h
      cases h
  · intro hf
    exact ⟨_, step_of_check_failed hd hf⟩

end Silent

/-! ## The table and the faults of a cycle -/

/-- **The instruction table.** On an output that takes everything a cycle fails to fetch, or fails
the first check of the instruction that is not passed, or does what the table says and no more. -/
theorem step_eq_table (h : channel.Accepts) (m : Machine σ) :
    (step channel).run m =
      match m.processor.decoded with
      | .error fault => .error fault (m.faulted fault)
      | .ok op =>
        match m.processor.fault? op with
        | some fault => .error fault (m.sighted.faulted fault)
        | none => .ok ()
          { processor := m.processor.effect op
            output := (handOver channel m.output (m.processor.printed? op)).1
            journal := (entries op m.processor).foldl Array.push m.sighted.journal } := by
  cases hd : m.processor.decoded with
  | error fault => exact step_of_decoded_error hd
  | ok op =>
    cases hf : m.processor.fault? op with
    | some fault =>
      dsimp only
      rw [hf]
      exact step_of_check_failed hd hf
    | none =>
      dsimp only
      have hp : performed channel m.sighted op = _ :=
        performed_of_handOver (handOver_of_accepts h _ _)
      rw [hf, step_of_checks_passed channel hd hf, hp]
      rfl

/-- A call through the stack pointer jumps to where the stack pointer stood before. -/
theorem step_eq_table_call_stackRegister :
    Channel.unbounded.Accepts ∧
      ∃ m', (step .unbounded).run (loaded [0x50, 0x07]) = .ok () m' ∧
        m'.processor.counter = 0xF4 ∧ m'.processor.registers.stackPointer = 0xF3 ∧
        m'.processor.memory.byte 0xF3 = 2 := by
  have h := step_eq_table Channel.accepts_unbounded (loaded [0x50, 0x07])
  have hd : (loaded [0x50, 0x07]).processor.decoded = .ok .call :=
    Processor.decoded_eq_ok_iff.mpr (by decide +kernel)
  have hf : (loaded [0x50, 0x07]).processor.fault? .call = none := by decide +kernel
  rw [hd] at h
  dsimp only at h
  rw [hf] at h
  refine ⟨Channel.accepts_unbounded, _, h, ?_, ?_, ?_⟩ <;> decide +kernel

/-- **What fails changes nothing.** An instruction or a stack operation that fails leaves the
processor as it was, whatever the output did. A failed cycle has halted it besides. -/
theorem processor_of_error (channel : Channel σ) (m : Machine σ) (p : Processor) :
    (∀ op fault m', (execute channel op).run m = .error fault m' → m'.processor = m.processor) ∧
    (∀ value fault p', (Processor.push value).run p = .error fault p' → p' = p) ∧
    (∀ index fault p', (Processor.pushRegister index).run p = .error fault p' → p' = p) ∧
    (∀ fault p', Processor.pop.run p = .error fault p' → p' = p) ∧
    (∀ index fault p', (Processor.popRegister index).run p = .error fault p' → p' = p) ∧
    (∀ fault m', (step channel).run m = .error fault m' →
      m'.processor = { m.processor with halted := true }) := by
  refine ⟨?_, ?_, ?_, ?_, ?_, ?_⟩
  · intro op fault m' h
    exact processor_of_execute_error h
  · intro value fault p' h
    exact (p.checked_push value).eq_of_error h
  · intro index fault p' h
    exact (p.checked_pushRegister index).eq_of_error h
  · intro fault p' h
    exact p.checked_pop.eq_of_error h
  · intro index fault p' h
    exact (p.checked_popRegister index).eq_of_error h
  · intro fault m' h
    exact processor_of_step_error h

/-- An output that takes one of four characters, and a stack pointer that is out of bounds both for
a push and for a pop. -/
theorem processor_of_error_bounded :
    (∃ m', (execute (.bounded 1) .prn).run (loaded [0x47, 0x07]) =
        .error (.output "output full") m' ∧
      m'.output = "2" ∧ m'.processor = (loaded [0x47, 0x07]).processor) ∧
    (∃ m', (step (.bounded 1)).run (loaded [0x47, 0x07]) = .error (.output "output full") m' ∧
      m'.processor = { (loaded [0x47, 0x07]).processor with halted := true }) ∧
    ∃ p : Processor, p.registers.stackPointer = 0xF5 ∧
      (∃ p', (Processor.push 1).run p = .error p.stackFault p' ∧ p' = p) ∧
      (∃ p', (Processor.pushRegister 8).run p = .error (.invalidRegister 8) p' ∧ p' = p) ∧
      (∃ p', Processor.pop.run p = .error p.stackFault p' ∧ p' = p) ∧
      (∃ p', (Processor.popRegister 8).run p = .error p.stackFault p' ∧ p' = p) := by
  let m := loaded [0x47, 0x07]
  let p := { m.processor with registers := Registers.initial.setStackPointer 0xF5 }
  obtain ⟨of_execute, of_push, of_pushRegister, of_pop, of_popRegister, of_step⟩ :=
    processor_of_error (.bounded 1) m p
  have hd : m.processor.decoded = .ok .prn :=
    Processor.decoded_eq_ok_iff.mpr (by decide +kernel)
  have hf : m.processor.fault? .prn = none := by decide +kernel
  have ho : handOver (.bounded 1) m.output (m.processor.printed? .prn) =
      ("2", some "output full") := by decide +kernel
  have hx := (checked_execute (.bounded 1) m .prn).run_of_passed hf
  rw [performed_of_refused (m := m) ho] at hx
  have hs := step_of_checks_passed (.bounded 1) hd hf
  rw [performed_of_refused (m := m.sighted) ho] at hs
  have hpush : (Processor.push 1).run p = .error p.stackFault p :=
    (p.checked_push 1).run_of_failed (by decide +kernel)
  have hregister : (Processor.pushRegister 8).run p = .error (.invalidRegister 8) p :=
    (p.checked_pushRegister 8).run_of_failed (by decide +kernel)
  have hpop : Processor.pop.run p = .error p.stackFault p :=
    p.checked_pop.run_of_failed (by decide +kernel)
  have hpopRegister : (Processor.popRegister 8).run p = .error p.stackFault p :=
    (p.checked_popRegister 8).run_of_failed (by decide +kernel)
  exact ⟨⟨_, hx, rfl, of_execute _ _ _ hx⟩, ⟨_, hs, of_step _ _ hs⟩, p, by decide +kernel,
    ⟨_, hpush, of_push _ _ _ hpush⟩, ⟨_, hregister, of_pushRegister _ _ _ hregister⟩,
    ⟨_, hpop, of_pop _ _ hpop⟩, ⟨_, hpopRegister, of_popRegister _ _ _ hpopRegister⟩⟩

end Machine

end ByteMachine
