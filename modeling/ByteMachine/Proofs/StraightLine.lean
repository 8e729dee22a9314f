import ByteMachine.Proofs.Program

/-!
# Straight-line programs run as written

A program that is encoded from address zero on is carried out instruction by instruction up to its
halt, and leaves behind what the program means. Its operand bytes may look like operations, and its
stack may lie in the same memory, as long as it stays above the program.

* `Machine.executes_of_apply`, `Machine.executes_of_fold`: one instruction, and those of a program.
* **`Machine.runFor_encode`**: the run of an encoded program.
-/

namespace ByteMachine

variable {σ : Type} {channel : Channel σ} {floor : Nat} {s final : Store σ}
  {program : List Instruction}

theorem fold_cons_eq_some_iff {i : Instruction} :
    fold channel floor (i :: program) s = some final ↔
      ∃ s', i.apply channel floor s = some s' ∧ fold channel floor program s' = some final := by
  simp only [fold, List.foldlM_cons, Option.bind_eq_bind, Option.bind_eq_some_iff]

theorem Store.get?_of_fold (h : fold channel floor program s = some final) {address : Nat}
    (below : address < floor) : final.memory.get? address = s.memory.get? address := by
  induction program generalizing s with
  | nil =>
    cases h
    rfl
  | cons i program ih =>
    obtain ⟨s', ha, hf⟩ := fold_cons_eq_some_iff.mp h
    rw [ih hf, Store.get?_of_apply ha below]

namespace Machine

variable {m : Machine σ} {offset : Nat}

/-- A machine before its first cycle. -/
def booted (memory : Ram) (output : σ) : Machine σ := { processor := .boot memory, output }

/-- The machine is about to carry out the instruction at `offset` and holds what the store holds. -/
structure Stands (m : Machine σ) (offset : Nat) (s : Store σ) : Prop where
  processor_eq : m.processor = s.processor offset
  output_eq : m.output = s.output

theorem stands_booted (memory : Ram) (output : σ) :
    (booted memory output).Stands 0 (.initial memory output) := ⟨rfl, rfl⟩

section Accepts

variable (accepts : channel.Accepts)
include accepts

/-- **One instruction.** -/
theorem executes_of_apply {i : Instruction} {s' : Store σ} (stands : m.Stands offset s)
    (code : s.memory.HasAt offset i.bytes) (h : i.apply channel floor s = some s') :
    Executes channel m [i.bytes] (next channel m) ∧
      (next channel m).Stands (offset + i.bytes.length) s' := by
  have ho := outcome_eq channel m
  rw [stands.processor_eq, stands.output_eq, Store.outcome_processor code h accepts,
    Outcome.mk.injEq] at ho
  obtain ⟨hok, hp, hout⟩ := ho
  have he : Executes channel m [m.processor.instruction i.opcode] (next channel m) := by
    refine .cycle ?_ ?_ (step_eq_ok_of_failure?_eq_none hok.symm) (.refl _)
    · rw [stands.processor_eq]
      rfl
    · rw [stands.processor_eq]
      exact Store.decoded_processor code
  rw [stands.processor_eq, Store.instruction_processor code] at he
  exact ⟨he, hp.symm, hout.symm⟩

/-- **The instructions of a program**, from `offset` on and below the floor of the stack. -/
theorem executes_of_fold (stands : m.Stands offset s)
    (code : s.memory.HasAt offset (program.flatMap Instruction.bytes))
    (below : offset + (program.flatMap Instruction.bytes).length ≤ floor)
    (h : fold channel floor program s = some final) :
    ∃ m', Executes channel m (program.map Instruction.bytes) m' ∧
      m'.Stands (offset + (program.flatMap Instruction.bytes).length) final := by
  induction program generalizing m offset s with
  | nil =>
    cases h
    exact ⟨m, .refl m, stands⟩
  | cons i program ih =>
    rw [List.flatMap_cons] at code below ⊢
    rw [List.length_append] at below ⊢
    obtain ⟨s', ha, hf⟩ := fold_cons_eq_some_iff.mp h
    obtain ⟨he, hs⟩ := executes_of_apply accepts stands code.left ha
    -- the rest of the program is still in place after the instruction
    have rest := code.right.congr fun address h => Store.get?_of_apply ha (by omega)
    obtain ⟨m', he', hs'⟩ := ih hs rest (by omega) hf
    rw [Nat.add_assoc] at hs'
    exact ⟨m', he.trans he', hs'⟩

end Accepts

/-- **The halt instruction.** -/
theorem executes_hlt (channel : Channel σ) (stands : m.Stands offset s)
    (code : s.memory.HasAt offset [Opcode.hlt.code]) :
    ∃ m', Executes channel m [[Opcode.hlt.code]] m' ∧ m'.output = s.output ∧
      m'.processor = { s.processor (offset + 1) with halted := true } := by
  have hd : m.processor.decoded = .ok .hlt := by
    rw [stands.processor_eq]
    exact Processor.decoded_eq_ok_iff.mpr (code 0 _ rfl)
  have ho : outcome channel m.processor m.output =
      ⟨none, { s.processor (offset + 1) with halted := true }, s.output⟩ := by
    unfold outcome
    rw [hd, stands.processor_eq, stands.output_eq]
    rfl
  rw [outcome_eq, Outcome.mk.injEq] at ho
  obtain ⟨hok, hp, hout⟩ := ho
  refine ⟨next channel m, ?_, hout, hp⟩
  refine .cycle ?_ hd (step_eq_ok_of_failure?_eq_none hok) (.refl _)
  rw [stands.processor_eq]
  rfl

/-- **An encoded program runs as written.** Its instructions are carried out once each, in order,
and then the halt instruction, and the machine ends up with what the program means. -/
theorem runFor_encode (accepts : channel.Accepts) (program : List Instruction) (memory : Ram)
    (output : σ) (fits : (encode program).length ≤ ramSize)
    (h : fold channel (encode program).length program
      (.initial (memory.overlay 0 (encode program)) output) = some final) :
    ∃ m' : Machine σ,
      Executes channel (booted (memory.overlay 0 (encode program)) output)
        (program.map Instruction.bytes ++ [[Opcode.hlt.code]]) m' ∧
      m'.processor = {
        registers := final.registers
        flags := final.flags
        counter := (encode program).length
        memory := final.memory
        halted := true } ∧
      m'.output = final.output ∧
      ∀ fuel, program.length < fuel → ∃ journal,
        runFor channel fuel (booted (memory.overlay 0 (encode program)) output) =
          .halted { m' with journal } := by
  have hn : (encode program).length = (program.flatMap Instruction.bytes).length + 1 := by
    rw [encode, List.length_append, List.length_singleton]
  have code := Memory.HasAt.overlay_zero memory fits
  obtain ⟨m, he, stands⟩ := executes_of_fold accepts (stands_booted _ output) code.left
    (by omega) h
  -- the halt instruction is still in place after the program
  have hlt := code.right.congr fun address below => Store.get?_of_fold h (by
    rw [hn]
    simpa using below)
  obtain ⟨m', he', hout, hp⟩ := executes_hlt channel stands hlt
  have all := he.trans he'
  have halted : m'.processor.halted = true := by rw [hp]
  refine ⟨m', all, ?_, hout, fun fuel enough => ⟨_, all.runFor_eq_halted halted ?_⟩⟩
  · rw [hp, hn, Nat.zero_add]
    rfl
  · simp only [List.length_append, List.length_map, List.length_singleton]
    exact enough

/-- A program that pushes the stack pointer, pops it into another register and prints that, in a
memory full of halt instructions. -/
theorem runFor_encode_push_pop :
    let r0 : Register := ⟨0, by decide⟩
    let sp : Register := ⟨stackRegister, by decide⟩
    let program : List Instruction := [.ldi r0 1, .push sp, .cmp r0 sp, .pop r0, .prn r0]
    let image := Memory.overlay 0 (encode program) ⟨Vector.replicate ramSize Opcode.hlt.code⟩
    Channel.unbounded.Accepts ∧ (encode program).length ≤ ramSize ∧
      ∃ m' : Machine String,
        Executes .unbounded (booted image "")
          [[0x82, 0, 1], [0x45, 7], [0xA7, 0, 7], [0x46, 0], [0x47, 0], [0x01]] m' ∧
        m'.processor.counter = 13 ∧ m'.processor.registers.value 0 = 0xF4 ∧
        m'.processor.flags.less = true ∧ m'.output = "244\n" ∧
        ∃ journal, runFor .unbounded 6 (booted image "") = .halted { m' with journal } := by
  intro r0 sp program image
  have fits : (encode program).length ≤ ramSize := by decide
  have means : (fold .unbounded (encode program).length program (.initial image "")).map
      (fun s => (s.registers.value 0, s.flags.less, s.output)) = some (0xF4, true, "244\n") := by
    decide +kernel
  obtain ⟨final, h, view⟩ := Option.map_eq_some_iff.mp means
  simp only [Prod.mk.injEq] at view
  obtain ⟨hr, hf, hw⟩ := view
  obtain ⟨m', he, hp, ho, hrun⟩ := runFor_encode Channel.accepts_unbounded program _ "" fits h
  refine ⟨Channel.accepts_unbounded, fits, m', he, ?_, ?_, ?_, ho.trans hw, hrun 6 (by decide)⟩
  · rw [hp]
    rfl
  · rw [hp]
    exact hr
  · rw [hp]
    exact hf

end Machine

end ByteMachine
