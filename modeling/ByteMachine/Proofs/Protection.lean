import ByteMachine.Proofs.Program
import ByteMachine.Proofs.Subroutine

/-!
# Where a run stores

The memory holds the program, its data and its stack, and any instruction may move the stack
pointer. Still only a push or a call stores a byte, and only where it leaves the stack pointer. So
the bytes from `stackTop` on never change, and neither does a program as long as no push or call
comes down into it.

* `Processor.memory_effect_of_not_pushes`, `Processor.get?_memory_effect_of_ne`: one instruction.
* `Machine.Pushes`, `Machine.get?_memory_next`: one cycle.
* **`Machine.get?_memory_after`**: what is left alone by every push and call stays as it is.
* **`Machine.only_pushes_store`**: all of this for a run.
-/

namespace ByteMachine

/-! ## One instruction -/

namespace Processor

variable {p : Processor} {op : Opcode}

theorem memory_effect_of_not_pushes (h : ¬ op.Pushes) : (p.effect op).memory = p.memory := by
  change p.memoryAfter op = _
  unfold memoryAfter
  cases hv : p.pushed? op with
  | none => rfl
  | some value => exact absurd (pushed?_isSome_iff.mp (by rw [hv]; rfl)) h

theorem stackPointer_effect_of_pushes (h : op.Pushes) :
    (p.effect op).registers.stackPointer = p.registers.stackPointer - 1 := by
  obtain rfl | rfl := h <;> exact Registers.stackPointer_setStackPointer _

theorem get?_memory_effect_of_ne {address : Nat}
    (h : op.Pushes → address ≠ (p.effect op).registers.stackPointer.toNat) :
    (p.effect op).memory.get? address = p.memory.get? address := by
  by_cases hp : op.Pushes
  · have ha := h hp
    rw [stackPointer_effect_of_pushes hp] at ha
    obtain rfl | rfl := hp <;> exact Memory.get?_set_ne ha _
  · rw [memory_effect_of_not_pushes hp]

theorem stackPointer_effect_lt_of_pushes (hf : p.fault? op = none) (h : op.Pushes) :
    (p.effect op).registers.stackPointer.toNat < stackTop.toNat := by
  have hc := canPush_of_fault?_eq_none hf h
  rw [stackPointer_effect_of_pushes h, toNat_sub_one hc]
  rw [canPush_iff] at hc
  omega

end Processor

namespace Machine

variable {σ : Type} {channel : Channel σ} {m : Machine σ}

/-! ## One cycle -/

/-- The next cycle is a push or a call, and succeeds. -/
def Pushes (channel : Channel σ) (m : Machine σ) : Prop :=
  failure? channel m = none ∧ ∃ op, m.processor.decoded = .ok op ∧ op.Pushes

theorem memory_next_of_not_pushes (h : ¬ Pushes channel m) :
    (next channel m).processor.memory = m.processor.memory := by
  obtain ⟨hn, op, hd, -, he⟩ | ⟨fault, -, he⟩ := next_cases channel m
  · rw [he]
    exact Processor.memory_effect_of_not_pushes fun hp => h ⟨hn, op, hd, hp⟩
  · rw [he]

theorem get?_memory_next {address : Nat}
    (h : Pushes channel m → address ≠ (next channel m).stackAddress) :
    (next channel m).processor.memory.get? address = m.processor.memory.get? address := by
  by_cases hp : Pushes channel m
  · have ha := h hp
    obtain ⟨hn, op, hd, hop⟩ := hp
    have he := (of_step_ok hd (step_eq_ok_of_failure?_eq_none hn)).2
    unfold stackAddress at ha
    rw [he] at ha ⊢
    exact Processor.get?_memory_effect_of_ne fun _ => ha
  · rw [memory_next_of_not_pushes hp]

theorem Pushes.stackAddress_next_lt (h : Pushes channel m) :
    (next channel m).stackAddress < stackTop.toNat := by
  obtain ⟨hn, op, hd, hop⟩ := h
  obtain ⟨hf, he⟩ := of_step_ok hd (step_eq_ok_of_failure?_eq_none hn)
  unfold stackAddress
  rw [he]
  exact Processor.stackPointer_effect_lt_of_pushes hf hop

/-! ## Runs -/

/-- **What every push and call of some cycles leaves alone** is the same after them. -/
theorem get?_memory_after {k address : Nat}
    (h : ∀ j < k, Pushes channel (after channel m j) →
      address ≠ (after channel m (j + 1)).stackAddress) :
    (after channel m k).processor.memory.get? address = m.processor.memory.get? address := by
  induction k with
  | zero => rfl
  | succ k ih =>
    have hk := h k (Nat.lt_succ_self k)
    rw [after_succ] at hk ⊢
    rw [get?_memory_next hk, ih fun j hj => h j (Nat.lt_succ_of_lt hj)]

/-- **Only the stack is stored to**, whatever a program does to the stack pointer: by pushes and
calls that succeed, each at the address where it leaves the stack pointer, which lies below `0xF4`.
What lies at `0xF4` or above never changes, and neither does what lies below all the stack pointers
that pushes and calls leave. -/
theorem only_pushes_store (channel : Channel σ) (m : Machine σ) (k : Nat) :
    (∀ j < k,
      (after channel m (j + 1)).processor.memory ≠ (after channel m j).processor.memory →
        Pushes channel (after channel m j)) ∧
    (∀ j < k, Pushes channel (after channel m j) →
      (after channel m (j + 1)).stackAddress < 0xF4 ∧
        ∀ address ≠ (after channel m (j + 1)).stackAddress,
          (after channel m (j + 1)).processor.memory.get? address =
            (after channel m j).processor.memory.get? address) ∧
    (∀ address, 0xF4 ≤ address →
      (after channel m k).processor.memory.get? address = m.processor.memory.get? address) ∧
    (∀ address,
      (∀ j < k, Pushes channel (after channel m j) →
        address < (after channel m (j + 1)).stackAddress) →
      (after channel m k).processor.memory.get? address = m.processor.memory.get? address) ∧
    ∀ program, m.processor.memory.HasAt 0 program →
      (∀ j < k, Pushes channel (after channel m j) →
        program.length ≤ (after channel m (j + 1)).stackAddress) →
      (after channel m k).processor.memory.HasAt 0 program := by
  have below : ∀ address,
      (∀ j < k, Pushes channel (after channel m j) →
        address < (after channel m (j + 1)).stackAddress) →
      (after channel m k).processor.memory.get? address = m.processor.memory.get? address :=
    fun address h => get?_memory_after fun j hj hp => Nat.ne_of_lt (h j hj hp)
  refine ⟨fun j _ hne => ?_, fun j _ hp => ⟨?_, fun address ha => ?_⟩, fun address ha => ?_,
    below, fun program hat h => hat.congr fun address ha => ?_⟩
  · by_contra hp
    rw [after_succ] at hne
    exact hne (memory_next_of_not_pushes hp)
  · rw [after_succ]
    exact hp.stackAddress_next_lt
  · rw [after_succ] at ha ⊢
    exact get?_memory_next fun _ => ha
  · refine get?_memory_after fun j _ hp heq => ?_
    have hlt := hp.stackAddress_next_lt
    have ht : stackTop.toNat = 0xF4 := rfl
    rw [after_succ] at heq
    omega
  · rw [Nat.zero_add] at ha
    exact below address fun j hj hp => Nat.lt_of_lt_of_le ha (h j hj hp)

/-- A program that moves the stack pointer down to its own end and pushes there. -/
theorem only_pushes_store_load_push :
    let program : List UInt8 := [0x82, 0x07, 0x06, 0x45, 0x07]
    let m := loaded program
    Pushes .unbounded (after .unbounded m 1) ∧ (after .unbounded m 2).stackAddress = 5 ∧
      (after .unbounded m 2).processor.memory.byte 5 = 6 ∧ m.processor.memory.byte 5 = 0 ∧
      m.processor.memory.HasAt 0 program ∧
      (∀ j < 2, Pushes .unbounded (after .unbounded m j) →
        program.length ≤ (after .unbounded m (j + 1)).stackAddress) ∧
      (after .unbounded m 2).processor.memory.HasAt 0 program := by
  intro program m
  have hd : m.processor.decoded = .ok .ldi := Processor.decoded_eq_ok_iff.mpr (by decide +kernel)
  obtain ⟨-, moved⟩ : failure? .unbounded m = none ∧
      (next .unbounded m).processor = m.processor.effect .ldi :=
    next_of_silent hd rfl (by decide +kernel)
  have hd' : (next .unbounded m).processor.decoded = .ok .push :=
    Processor.decoded_eq_ok_iff.mpr (by rw [moved]; decide +kernel)
  obtain ⟨success, pushed⟩ : failure? .unbounded (next .unbounded m) = none ∧
      (next .unbounded (next .unbounded m)).processor =
        (next .unbounded m).processor.effect .push :=
    next_of_silent hd' rfl (by rw [moved]; decide +kernel)
  rw [moved] at pushed
  have second : Pushes .unbounded (after .unbounded m 1) := by
    rw [after_one]
    exact ⟨success, .push, hd', .inl rfl⟩
  have sp : (after .unbounded m 2).stackAddress = 5 := by
    rw [after_succ, after_one]
    unfold stackAddress
    rw [pushed]
    decide +kernel
  have byte : (after .unbounded m 2).processor.memory.byte 5 = 6 := by
    rw [after_succ, after_one, pushed]
    decide +kernel
  have hat : m.processor.memory.HasAt 0 program := by
    have same : ∀ k < 5, m.processor.memory.get? k = program[k]? := by decide +kernel
    intro k byte hk
    have hl : k < 5 := (List.getElem?_eq_some_iff.mp hk).1
    rw [Nat.zero_add, same k hl, hk]
  have leaves : ∀ j < 2, Pushes .unbounded (after .unbounded m j) →
      program.length ≤ (after .unbounded m (j + 1)).stackAddress := by
    intro j hj hp
    obtain rfl | rfl : j = 0 ∨ j = 1 := by omega
    · obtain ⟨-, op, hop, pushes⟩ := hp
      rw [after_zero, hd] at hop
      obtain rfl := Except.ok.inj hop
      exact absurd pushes (by decide)
    · rw [sp]
      decide
  obtain ⟨-, -, -, -, kept⟩ := only_pushes_store .unbounded m 2
  exact ⟨second, sp, byte, by decide +kernel, hat, leaves, kept program hat leaves⟩

end Machine

end ByteMachine
