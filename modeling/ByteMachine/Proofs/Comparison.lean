import Mathlib.Data.Nat.Init
import ByteMachine.Proofs.Run

/-!
# What the flags are for

No cycle reads the flags, so that runs of two processors that differ in nothing else cannot be told
apart. The flags are written by a comparison that succeeds, and tell how its operands stood to each
other until the next one, whatever becomes of the registers.

* `Flags.Tell`, `Flags.tell_ofComparison`: what the flags tell about two bytes.
* `Processor.AgreeButFlags`, `Machine.AgreeButFlags.next`, **`Machine.AgreeButFlags.after`**: two
  cycles and two runs side by side.
* `Machine.compared?`, **`Machine.flags_next`**: the values that a cycle compares, and its flags.
* `Machine.LastCompared`, `Machine.LastCompared.flags`: the values that were compared last, and the
  flags that they leave.
* **`Machine.flags_of_agreeButFlags`**: flags steer nothing, and tell about the last comparison.
-/

namespace ByteMachine

/-! ## Flags -/

namespace Flags

/-- The flags after a comparison of two bytes. -/
def ofComparison (x y : UInt8) : Flags := ⟨some (compare x.toNat y.toNat)⟩

/-- **The flags tell how two bytes stand to each other**, in their unsigned order: one of them is
set, and no other. -/
structure Tell (flags : Flags) (x y : UInt8) : Prop where
  less_iff : flags.less = true ↔ x < y
  greater_iff : flags.greater = true ↔ y < x
  equal_iff : flags.equal = true ↔ x = y
  one : [flags.less, flags.greater, flags.equal].count true = 1

theorem tell_ofComparison (x y : UInt8) : (ofComparison x y).Tell x y where
  less_iff := by simp [less, ofComparison, UInt8.lt_iff_toNat_lt, Nat.compare_eq_lt]
  greater_iff := by simp [greater, ofComparison, UInt8.lt_iff_toNat_lt, Nat.compare_eq_gt]
  equal_iff := by simp [equal, ofComparison, ← UInt8.toNat_inj]
  one := by
    unfold less greater equal ofComparison
    cases compare x.toNat y.toNat <;> rfl

end Flags

/-! ## Processors that differ in their flags -/

namespace Processor

/-- Two processors that are the same but for the flags. -/
structure AgreeButFlags (p q : Processor) : Prop where
  counter_eq : p.counter = q.counter
  registers_eq : p.registers = q.registers
  memory_eq : p.memory = q.memory
  halted_eq : p.halted = q.halted

theorem AgreeButFlags.eq_with_flags {p q : Processor} (h : p.AgreeButFlags q) :
    q = { p with flags := q.flags } := by
  obtain ⟨⟨r, f⟩, c, m, t⟩ := p
  obtain ⟨⟨r', f'⟩, c', m', t'⟩ := q
  obtain ⟨rfl, rfl, rfl, rfl⟩ := h
  rfl

variable (p : Processor) (flags : Flags)

theorem decoded_with_flags : { p with flags }.decoded = p.decoded := rfl

theorem fault?_with_flags (op : Opcode) : { p with flags }.fault? op = p.fault? op := rfl

theorem printed?_with_flags (op : Opcode) : { p with flags }.printed? op = p.printed? op := rfl

theorem effect_with_flags (op : Opcode) :
    (p.effect op).AgreeButFlags ({ p with flags }.effect op) where
  counter_eq := rfl
  registers_eq := rfl
  memory_eq := rfl
  halted_eq := rfl

end Processor

namespace Machine

variable {σ : Type} {channel : Channel σ} {m m' : Machine σ} {k : Nat} {x y : UInt8}

/-- Two machines that are the same but for the flags, as far as the journal is left aside. -/
structure AgreeButFlags (m m' : Machine σ) : Prop where
  processor : m.processor.AgreeButFlags m'.processor
  output_eq : m.output = m'.output

theorem outcome_with_flags (channel : Channel σ) (p : Processor) (flags : Flags) (output : σ) :
    (outcome channel p output).failure? =
        (outcome channel { p with flags } output).failure? ∧
      (outcome channel p output).output = (outcome channel { p with flags } output).output ∧
      (outcome channel p output).processor.AgreeButFlags
        (outcome channel { p with flags } output).processor := by
  unfold outcome
  rw [p.decoded_with_flags flags]
  cases p.decoded with
  | error fault => exact ⟨rfl, rfl, ⟨rfl, rfl, rfl, rfl⟩⟩
  | ok op =>
    dsimp only
    rw [p.fault?_with_flags flags, p.printed?_with_flags flags]
    cases p.fault? op with
    | some fault => exact ⟨rfl, rfl, ⟨rfl, rfl, rfl, rfl⟩⟩
    | none =>
      dsimp only
      rcases handOver channel output (p.printed? op) with ⟨output, _ | reason⟩
      · exact ⟨rfl, rfl, p.effect_with_flags flags op⟩
      · exact ⟨rfl, rfl, ⟨rfl, rfl, rfl, rfl⟩⟩

namespace AgreeButFlags

/-- **One cycle** comes to the same on both. -/
theorem next (h : m.AgreeButFlags m') (channel : Channel σ) :
    failure? channel m = failure? channel m' ∧
      (Machine.next channel m).AgreeButFlags (Machine.next channel m') := by
  have ho := outcome_with_flags channel m.processor m'.processor.flags m.output
  rw [← h.processor.eq_with_flags, outcome_eq, h.output_eq, outcome_eq] at ho
  exact ⟨ho.1, ho.2.2, ho.2.1⟩

/-- **Any number of cycles** come to the same on both. -/
theorem after (h : m.AgreeButFlags m') (channel : Channel σ) (k : Nat) :
    (Machine.after channel m k).AgreeButFlags (Machine.after channel m' k) := by
  induction k with
  | zero => exact h
  | succ k ih =>
    rw [after_succ, after_succ]
    exact (ih.next channel).2

end AgreeButFlags

/-! ## Comparisons -/

/-- The values that the next cycle compares: those of the operands of a comparison, if the cycle
succeeds. -/
def compared? (channel : Channel σ) (m : Machine σ) : Option (UInt8 × UInt8) :=
  match m.processor.decoded, failure? channel m with
  | .ok .cmp, none => some (m.processor.registers.value (m.processor.peek 1),
      m.processor.registers.value (m.processor.peek 2))
  | _, _ => none

/-- **The flags of a cycle.** Nothing but a comparison writes them, and only if it succeeds. -/
theorem flags_next (channel : Channel σ) (m : Machine σ) :
    (next channel m).processor.flags =
      match compared? channel m with
      | some (x, y) => .ofComparison x y
      | none => m.processor.flags := by
  obtain ⟨hok, op, hd, -, hp⟩ | ⟨fault, hf, hp⟩ := next_cases channel m
  · rw [compared?, hd, hok, hp]
    cases op <;> rfl
  · have nothing : compared? channel m = none := by
      rw [compared?, hf]
      rcases m.processor.decoded with _ | op
      · rfl
      · cases op <;> rfl
    rw [nothing, hp]

theorem AgreeButFlags.compared?_eq (h : m.AgreeButFlags m') (channel : Channel σ) :
    compared? channel m = compared? channel m' := by
  have hp := h.processor.eq_with_flags
  unfold compared?
  rw [(h.next channel).1, hp]
  rfl

/-- The values that were compared last in the first `k` cycles. -/
def LastCompared (channel : Channel σ) (m : Machine σ) (k : Nat) (x y : UInt8) : Prop :=
  ∃ j < k, compared? channel (after channel m j) = some (x, y) ∧
    ∀ i, j < i → i < k → compared? channel (after channel m i) = none

theorem flags_after_of_none {j : Nat} (hj : j ≤ k)
    (h : ∀ i, j ≤ i → i < k → compared? channel (after channel m i) = none) :
    (after channel m k).processor.flags = (after channel m j).processor.flags := by
  induction k, hj using Nat.le_induction with
  | base => rfl
  | succ k hk ih =>
    rw [after_succ, flags_next, h k hk (Nat.lt_succ_self k),
      ih fun i hi hik => h i hi (Nat.lt_succ_of_lt hik)]

/-- **The flags tell about the last comparison.** -/
theorem LastCompared.flags (h : LastCompared channel m k x y) :
    (after channel m k).processor.flags = .ofComparison x y := by
  obtain ⟨j, hj, hc, later⟩ := h
  rw [flags_after_of_none hj later, after_succ, flags_next, hc]

theorem exists_lastCompared (h : ∃ j < k, compared? channel (after channel m j) ≠ none) :
    ∃ x y, LastCompared channel m k x y := by
  induction k with
  | zero =>
    obtain ⟨j, hj, -⟩ := h
    exact absurd hj (Nat.not_lt_zero j)
  | succ k ih =>
    cases hc : compared? channel (after channel m k) with
    | some values => exact ⟨values.1, values.2, k, Nat.lt_succ_self k, hc, by omega⟩
    | none =>
      -- the last cycle compares nothing, so that the last comparison is one before it
      obtain ⟨j, hj, hne⟩ := h
      have hjk : j ≠ k := fun he => hne (he ▸ hc)
      obtain ⟨x, y, j, hj, hv, later⟩ := ih ⟨j, by omega, hne⟩
      refine ⟨x, y, j, Nat.lt_succ_of_lt hj, hv, fun i hi hik => ?_⟩
      obtain hlt | rfl := Nat.lt_succ_iff_lt_or_eq.mp hik
      · exact later i hi hlt
      · exact hc

theorem AgreeButFlags.lastCompared (h : m.AgreeButFlags m') (last : LastCompared channel m k x y) :
    LastCompared channel m' k x y := by
  obtain ⟨j, hj, hc, later⟩ := last
  exact ⟨j, hj, ((h.after channel j).compared?_eq channel).symm.trans hc, fun i hi hik =>
    ((h.after channel i).compared?_eq channel).symm.trans (later i hi hik)⟩

/-- **Flags steer nothing, and tell about the last comparison.** Machines that differ in their flags
go through the same cycles. Each keeps its flags until a comparison succeeds, and from then on both
have those of the last one. -/
theorem flags_of_agreeButFlags (h : m.AgreeButFlags m') (channel : Channel σ) (k : Nat) :
    (∀ j < k, failure? channel (after channel m j) = failure? channel (after channel m' j)) ∧
    (∀ j ≤ k, (after channel m j).output = (after channel m' j).output ∧
      (after channel m j).processor.AgreeButFlags (after channel m' j).processor) ∧
    ((∀ j < k, compared? channel (after channel m j) = none) →
      (after channel m k).processor.flags = m.processor.flags ∧
      (after channel m' k).processor.flags = m'.processor.flags) ∧
    ((∃ j < k, compared? channel (after channel m j) ≠ none) →
      ∃ x y, LastCompared channel m k x y) ∧
    ∀ x y, LastCompared channel m k x y →
      (after channel m k).processor.flags = (after channel m' k).processor.flags ∧
      (after channel m k).processor.flags.Tell x y := by
  have same (j : Nat) := (h.after channel j).compared?_eq channel
  refine ⟨fun j _ => ((h.after channel j).next channel).1,
    fun j _ => ⟨(h.after channel j).output_eq, (h.after channel j).processor⟩,
    fun none => ⟨?_, ?_⟩, exists_lastCompared, fun x y last => ⟨?_, ?_⟩⟩
  · exact flags_after_of_none (Nat.zero_le k) fun i _ hi => none i hi
  · exact flags_after_of_none (Nat.zero_le k) fun i _ hi => (same i).symm.trans (none i hi)
  · rw [last.flags, (h.lastCompared last).flags]
  · rw [last.flags]
    exact Flags.tell_ofComparison x y

/-- A comparison of two registers, of which one changes afterwards, and one that fails. -/
theorem flags_of_agreeButFlags_less :
    let m := loaded [0x65, 0, 0xA7, 0, 7, 0x65, 0, 0xA7, 9, 0]
    let m' := { m with processor.flags := ⟨some .gt⟩ }
    m.AgreeButFlags m' ∧
      ((after .unbounded m 1).processor.flags = m.processor.flags ∧
        (after .unbounded m' 1).processor.flags = m'.processor.flags) ∧
      failure? .unbounded (after .unbounded m' 3) = some (.invalidRegister 9) ∧
      LastCompared .unbounded m 4 1 0xF4 ∧
      (after .unbounded m 4).processor.flags = (after .unbounded m' 4).processor.flags ∧
      (after .unbounded m 4).processor.flags.Tell 1 0xF4 := by
  intro m m'
  have agree : m.AgreeButFlags m' := ⟨⟨rfl, rfl, rfl, rfl⟩, rfl⟩
  have last : LastCompared .unbounded m 4 1 0xF4 := ⟨1, by decide, by decide +kernel, by
    intro i hi hk
    obtain rfl | rfl : i = 2 ∨ i = 3 := by omega
    · decide +kernel
    · decide +kernel⟩
  have failed : failure? .unbounded (after .unbounded m 3) = some (.invalidRegister 9) := by
    decide +kernel
  obtain ⟨-, -, before, -⟩ := flags_of_agreeButFlags agree .unbounded 1
  obtain ⟨results, -, -, -, once⟩ := flags_of_agreeButFlags agree .unbounded 4
  exact ⟨agree, before (by decide +kernel), (results 3 (by decide)).symm.trans failed, last,
    once 1 0xF4 last⟩

end Machine

end ByteMachine
