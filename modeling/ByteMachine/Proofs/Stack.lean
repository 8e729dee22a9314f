import ByteMachine.Proofs.Run

/-!
# The stack

The bytes between the stack pointer and `stackTop` as a list, and what becomes of it in a run. As
long as a program does not set the stack pointer by name, every instruction works on the list as on
a stack of at most 244 bytes.

* `Processor.stack`: the bytes on the stack, the top of the stack first.
* **`Processor.memory_effect_of_le`**: an instruction changes nothing at the stack pointer or above.
* **`Processor.stack_effect`**: it adds a byte to the list, takes one off or leaves it alone.
* `Processor.Holds`, `Processor.Holds.effect`: the invariant of a run, and its step.
* `Machine.StackRun`: runs, along with the list that they should have on their stack.
* **`Machine.StackRun.lifo`**: the stack is that list, and its bounds are those of the faults.
-/

namespace ByteMachine

namespace Opcode

/-- The operation stores into the register that its first operand names. -/
def Stores (op : Opcode) : Prop :=
  op = ldi ∨ op = add ∨ op = sub ∨ op = mul ∨ op = inc ∨ op = dec ∨ op = pop

instance (op : Opcode) : Decidable op.Stores := inferInstanceAs (Decidable (_ ∨ _))

end Opcode

namespace Processor

variable {p : Processor} {op : Opcode}

/-! ## The bytes on the stack -/

/-- The bytes on the stack, the top of the stack first. -/
def stack (p : Processor) : List UInt8 :=
  (List.range' p.registers.stackPointer.toNat
    (stackTop.toNat - p.registers.stackPointer.toNat)).map p.memory.byte

theorem length_stack (p : Processor) :
    p.stack.length = stackTop.toNat - p.registers.stackPointer.toNat := by
  rw [stack, List.length_map, List.length_range']

theorem canPop_iff : p.CanPop ↔ p.registers.stackPointer.toNat < stackTop.toNat :=
  UInt8.lt_iff_toNat_lt

theorem canPush_iff :
    p.CanPush ↔ 1 ≤ p.registers.stackPointer.toNat ∧
      p.registers.stackPointer.toNat ≤ stackTop.toNat := by
  rw [CanPush, UInt8.le_iff_toNat_le, UInt8.le_iff_toNat_le]
  rfl

theorem stack_eq_nil_iff : p.stack = [] ↔ ¬ p.CanPop := by
  rw [← List.length_eq_zero_iff, length_stack, canPop_iff]
  omega

theorem toNat_add_one (h : p.CanPop) :
    (p.registers.stackPointer + 1).toNat = p.registers.stackPointer.toNat + 1 := by
  have ht : stackTop.toNat = 0xF4 := rfl
  rw [canPop_iff] at h
  rw [UInt8.toNat_add, UInt8.toNat_one]
  omega

theorem toNat_sub_one (h : p.CanPush) :
    (p.registers.stackPointer - 1).toNat = p.registers.stackPointer.toNat - 1 := by
  rw [UInt8.toNat_sub_of_le _ _ h.1, UInt8.toNat_one]

theorem stack_eq_cons (h : p.CanPop) :
    p.stack = p.topByte :: (List.range' (p.registers.stackPointer.toNat + 1)
      (stackTop.toNat - (p.registers.stackPointer.toNat + 1))).map p.memory.byte := by
  rw [canPop_iff] at h
  have hn : stackTop.toNat - p.registers.stackPointer.toNat =
      stackTop.toNat - (p.registers.stackPointer.toNat + 1) + 1 := by omega
  rw [stack, hn, List.range'_succ, List.map_cons]
  rfl

/-! ## What an instruction does to the stack -/

theorem canPush_of_fault?_eq_none (h : p.fault? op = none) (hp : op.Pushes) : p.CanPush := by
  simp only [fault?, Option.or_eq_none_iff, if_pos hp, pushCheck, Fault.unless_eq_none_iff] at h
  exact h.2.2.2.2

theorem canPop_of_fault?_eq_none (h : p.fault? op = none) (hp : op.Pops) : p.CanPop := by
  simp only [fault?, Option.or_eq_none_iff, if_pos hp, popCheck, Fault.unless_eq_none_iff] at h
  exact h.2.1

theorem pushed?_isSome_iff : (p.pushed? op).isSome = true ↔ op.Pushes := by
  cases op <;> simp [pushed?, Opcode.Pushes]

/-- **An instruction changes nothing at the stack pointer or above.** -/
theorem memory_effect_of_le (h : p.fault? op = none) {address : Nat}
    (ha : p.registers.stackPointer.toNat ≤ address) :
    (p.effect op).memory.get? address = p.memory.get? address := by
  change (p.memoryAfter op).get? address = _
  unfold memoryAfter
  split
  · rename_i value hv
    have hp : p.CanPush := canPush_of_fault?_eq_none h (pushed?_isSome_iff.mp (by rw [hv]; rfl))
    have h1 := toNat_sub_one hp
    rw [canPush_iff] at hp
    exact Memory.get?_set_ne (by omega) value
  · rfl

theorem byte_effect_of_le (h : p.fault? op = none) {address : Nat}
    (ha : p.registers.stackPointer.toNat ≤ address) :
    (p.effect op).memory.byte address = p.memory.byte address := by
  rw [Memory.byte, memory_effect_of_le h ha, Memory.byte]

/-- An instruction stores into the stack pointer by name. -/
def NamesStackPointer (p : Processor) (op : Opcode) : Prop := op.Stores ∧ p.peek 1 = stackRegister

instance : Decidable (p.NamesStackPointer op) := inferInstanceAs (Decidable (_ ∧ _))

theorem stackPointer_effect (h : ¬ p.NamesStackPointer op) :
    (p.effect op).registers.stackPointer =
      if op.Pushes then p.registers.stackPointer - 1
      else if op.Pops then p.registers.stackPointer + 1
      else p.registers.stackPointer := by
  change (p.registersAfter op).stackPointer = _
  have hs : ∀ new, op.Stores → (p.registers.set (p.peek 1) new).stackPointer =
      p.registers.stackPointer := by
    intro new ho
    rw [Registers.stackPointer_set, if_neg fun hp => h ⟨ho, hp⟩]
  cases op with
  | hlt | prn | cmp => rfl
  | push | call | ret => exact Registers.stackPointer_setStackPointer _
  | pop =>
    -- the popped byte would be counted up if it went into the stack pointer
    have hp : p.peek 1 ≠ stackRegister := fun hp => h ⟨by decide, hp⟩
    exact (Registers.stackPointer_setStackPointer _).trans (by rw [if_neg hp]; rfl)
  | ldi | add | sub | mul | inc | dec => exact hs _ (by decide)

/-- What should be on the stack after an instruction: a push adds a byte, a pop takes one off. -/
def stackAfter (p : Processor) (op : Opcode) (bytes : List UInt8) : List UInt8 :=
  match p.pushed? op with
  | some value => value :: bytes
  | none => if op.Pops then bytes.tail else bytes

theorem map_byte_effect (h : p.fault? op = none) {start n : Nat}
    (hs : p.registers.stackPointer.toNat ≤ start) :
    (List.range' start n).map (p.effect op).memory.byte =
      (List.range' start n).map p.memory.byte := by
  refine List.map_congr_left fun address ha => byte_effect_of_le h ?_
  rw [List.mem_range'_1] at ha
  omega

section StackEffect

variable (hf : p.fault? op = none) (hn : ¬ p.NamesStackPointer op)
include hf hn

theorem stack_effect_of_pushed {value : UInt8} (hv : p.pushed? op = some value) :
    (p.effect op).stack = value :: p.stack := by
  have hp : op.Pushes := pushed?_isSome_iff.mp (by rw [hv]; rfl)
  have hc := canPush_of_fault?_eq_none hf hp
  have hsp : (p.effect op).registers.stackPointer = p.registers.stackPointer - 1 := by
    rw [stackPointer_effect hn, if_pos hp]
  have hq : (p.effect op).CanPop := by
    rw [canPop_iff, hsp, toNat_sub_one hc]
    rw [canPush_iff] at hc
    omega
  have ht : (p.effect op).topByte = value := by
    have hm : (p.effect op).memory = p.memory.set (p.registers.stackPointer - 1).toNat value := by
      change p.memoryAfter op = _
      rw [memoryAfter, hv]
    rw [topByte, hsp, hm, Memory.byte_set_self (toNat_lt_ramSize _)]
  -- behind the new top the list starts where the old one did
  have h1 : p.registers.stackPointer.toNat - 1 + 1 = p.registers.stackPointer.toNat := by
    rw [canPush_iff] at hc
    omega
  rw [stack_eq_cons hq, ht, hsp, toNat_sub_one hc, h1, map_byte_effect hf (Nat.le_refl _), stack]

theorem stack_effect_of_pops (hp : op.Pops) : (p.effect op).stack = p.stack.tail := by
  have hc := canPop_of_fault?_eq_none hf hp
  have hsp : (p.effect op).registers.stackPointer = p.registers.stackPointer + 1 := by
    rw [stackPointer_effect hn, if_neg, if_pos hp]
    rcases hp with rfl | rfl <;> decide
  rw [stack_eq_cons hc, List.tail_cons, stack, hsp, toNat_add_one hc,
    map_byte_effect hf (Nat.le_succ _)]

theorem stack_effect_of_neither (hpush : ¬ op.Pushes) (hpop : ¬ op.Pops) :
    (p.effect op).stack = p.stack := by
  have hsp : (p.effect op).registers.stackPointer = p.registers.stackPointer := by
    rw [stackPointer_effect hn, if_neg hpush, if_neg hpop]
  rw [stack, hsp, map_byte_effect hf (Nat.le_refl _), stack]

/-- **An instruction works on the bytes between the pointers as on a stack.** -/
theorem stack_effect : (p.effect op).stack = p.stackAfter op p.stack := by
  unfold stackAfter
  cases hv : p.pushed? op with
  | some value => exact stack_effect_of_pushed hf hn hv
  | none =>
    have hpush : ¬ op.Pushes := by
      rw [← pushed?_isSome_iff (p := p), hv]
      exact Bool.false_ne_true
    dsimp only
    split_ifs with hpop
    · exact stack_effect_of_pops hf hn hpop
    · exact stack_effect_of_neither hf hn hpush hpop

theorem stackPointer_effect_le (h : p.registers.stackPointer.toNat ≤ stackTop.toNat) :
    (p.effect op).registers.stackPointer.toNat ≤ stackTop.toNat := by
  rw [stackPointer_effect hn]
  split_ifs with hpush hpop
  · rw [toNat_sub_one (canPush_of_fault?_eq_none hf hpush)]
    omega
  · have hc := canPop_of_fault?_eq_none hf hpop
    rw [toNat_add_one hc]
    exact canPop_iff.mp hc
  · exact h

end StackEffect

/-! ## The invariant of a run -/

/-- The stack pointer is in its bounds, and these are the bytes on the stack. -/
structure Holds (p : Processor) (bytes : List UInt8) : Prop where
  le_top : p.registers.stackPointer.toNat ≤ stackTop.toNat
  stack_eq : p.stack = bytes

namespace Holds

variable {bytes : List UInt8}

theorem boot (image : Ram) : (Processor.boot image).Holds [] := ⟨Nat.le_refl _, rfl⟩

theorem effect (h : p.Holds bytes) (hf : p.fault? op = none) (hn : ¬ p.NamesStackPointer op) :
    (p.effect op).Holds (p.stackAfter op bytes) where
  le_top := stackPointer_effect_le hf hn h.le_top
  stack_eq := by rw [stack_effect hf hn, h.stack_eq]

theorem stackPointer_add_length (h : p.Holds bytes) :
    p.registers.stackPointer.toNat + bytes.length = stackTop.toNat := by
  have := h.le_top
  rw [← h.stack_eq, length_stack]
  omega

theorem eq_nil_iff (h : p.Holds bytes) : bytes = [] ↔ ¬ p.CanPop := by
  rw [← h.stack_eq]
  exact stack_eq_nil_iff

theorem length_eq_iff (h : p.Holds bytes) : bytes.length = stackTop.toNat ↔ ¬ p.CanPush := by
  have hl := h.stackPointer_add_length
  have ht : 1 ≤ stackTop.toNat := by decide
  rw [canPush_iff]
  omega

theorem head?_eq (h : p.Holds bytes) (hc : p.CanPop) : bytes.head? = some p.topByte := by
  rw [← h.stack_eq, stack_eq_cons hc, List.head?_cons]

end Holds

/-! ## Faults of the stack -/

theorem exists_fault?_iff_of_pops (hp : op.Pops) (ho : op = .pop → p.counter + 1 < ramSize) :
    (∃ address, p.fault? op = some (.outOfBounds .stack address)) ↔ ¬ p.CanPop := by
  rcases hp with rfl | rfl
  · have h1 : p.operandCheck 1 = none := Fault.unless_of_pos (ho rfl)
    rw [fault?_eq]
    dsimp only
    rw [h1, Option.none_or, popCheck, Fault.unless_or, Datapath.registerCheck, Fault.unless]
    split_ifs with hc <;> simp [hc, stackFault]
  · rw [fault?_eq]
    dsimp only
    rw [popCheck, Fault.unless]
    split_ifs with hc <;> simp [hc, stackFault]

theorem exists_fault?_iff_of_pushes (hp : op.Pushes) (ho : p.counter + 1 < ramSize)
    (hr : (p.peek 1).toNat < registerCount) (hb : op = .call → p.counter + 2 ≤ 255) :
    (∃ address, p.fault? op = some (.outOfBounds .stack address)) ↔ ¬ p.CanPush := by
  have h1 : p.operandCheck 1 = none := Fault.unless_of_pos ho
  have h2 : Datapath.registerCheck (p.peek 1) = none := Fault.unless_of_pos hr
  have hf : p.fault? op = p.pushCheck := by
    rw [fault?_eq]
    rcases hp with rfl | rfl
    · dsimp only
      rw [h1, h2, Option.none_or, Option.none_or]
    · have h3 : p.returnCheck = none := Fault.unless_of_pos (hb rfl)
      dsimp only
      rw [h1, h2, h3, Option.none_or, Option.none_or, Option.none_or]
  rw [hf, pushCheck, Fault.unless]
  split_ifs with hc <;> simp [hc, stackFault]

theorem value_effect_pop (hf : p.fault? .pop = none) (hn : p.peek 1 ≠ stackRegister) :
    (p.effect .pop).registers.value (p.peek 1) = p.topByte := by
  have hr : (p.peek 1).toNat < registerCount := by
    rw [fault?_eq] at hf
    simp only [Option.or_eq_none_iff, Datapath.registerCheck, Fault.unless_eq_none_iff] at hf
    exact hf.2.2
  exact (Registers.value_setStackPointer_ne hn _).trans (Registers.value_set_self hr _)

end Processor

/-! ## Runs -/

namespace Machine

variable {σ : Type}

/-- The next cycle fails by a fault of the stack. -/
def FaultsOnStack (channel : Channel σ) (m : Machine σ) : Prop :=
  ∃ address m', (step channel).run m = .error (.outOfBounds .stack address) m'

/-- **Runs from a memory image**, along with the list that they should have on their stack. Their
cycles may fail. Those that succeed do not store into the stack pointer by name. -/
inductive StackRun (channel : Channel σ) (image : Ram) : Machine σ → List UInt8 → Prop
  | boot {m : Machine σ} (start : m.processor = .boot image) : StackRun channel image m []
  | failed {m m' : Machine σ} {bytes : List UInt8} {fault : Fault}
      (run : StackRun channel image m bytes) (failure : (step channel).run m = .error fault m') :
      StackRun channel image m' bytes
  | cycle {m m' : Machine σ} {bytes : List UInt8} {op : Opcode}
      (run : StackRun channel image m bytes) (decoded : m.processor.decoded = .ok op)
      (unnamed : ¬ m.processor.NamesStackPointer op) (success : (step channel).run m = .ok () m') :
      StackRun channel image m' (m.processor.stackAfter op bytes)

/-- The machine works on a list of bytes as on a stack of at most 244 bytes. -/
structure WorksAsStack (channel : Channel σ) (m : Machine σ) (bytes : List UInt8) : Prop where
  stackPointer_eq : m.processor.registers.stackPointer.toNat = 0xF4 - bytes.length
  length_le : bytes.length ≤ 244
  /-- The list is in the memory, from the stack pointer up. -/
  eq_stack : bytes = m.processor.stack
  /-- A pop loads the front of the list. -/
  pop_loads : ∀ m', m.processor.decoded = .ok .pop → m.processor.peek 1 ≠ stackRegister →
    (step channel).run m = .ok () m' →
      bytes.head? = some (m'.processor.registers.value (m.processor.peek 1))
  /-- A return jumps to the front of the list. -/
  ret_jumps : ∀ m', m.processor.decoded = .ok .ret → (step channel).run m = .ok () m' →
    bytes.head?.map UInt8.toNat = some m'.processor.counter
  pops_fault_iff : ∀ op : Opcode, op.Pops → m.processor.decoded = .ok op →
    (op = .pop → m.processor.counter + 1 < ramSize) → (FaultsOnStack channel m ↔ bytes = [])
  pushes_fault_iff : ∀ op : Opcode, op.Pushes → m.processor.decoded = .ok op →
    m.processor.counter + 1 < ramSize → (m.processor.peek 1).toNat < registerCount →
    (op = .call → m.processor.counter + 2 ≤ 255) →
      (FaultsOnStack channel m ↔ bytes.length = 244)

theorem faultsOnStack_iff {channel : Channel σ} {m : Machine σ} {op : Opcode}
    (hd : m.processor.decoded = .ok op) (hp : m.processor.printed? op = none) :
    FaultsOnStack channel m ↔
      ∃ address, m.processor.fault? op = some (.outOfBounds .stack address) :=
  exists_congr fun _ => exists_step_error_iff hd hp

namespace StackRun

variable {channel : Channel σ} {image : Ram} {m : Machine σ} {bytes : List UInt8}

theorem holds (h : StackRun channel image m bytes) : m.processor.Holds bytes := by
  induction h with
  | boot start =>
    rw [start]
    exact .boot image
  | failed run failure ih =>
    rw [processor_of_step_error failure]
    exact ⟨ih.le_top, ih.stack_eq⟩
  | cycle run decoded unnamed success ih =>
    obtain ⟨hf, he⟩ := of_step_ok decoded success
    rw [he]
    exact ih.effect hf unnamed

theorem of_success {bytes' : List UInt8} {op : Opcode} (run : StackRun channel image m bytes)
    (decoded : m.processor.decoded = .ok op) (unnamed : ¬ m.processor.NamesStackPointer op)
    (success : failure? channel m = none) (stack : m.processor.stackAfter op bytes = bytes') :
    StackRun channel image (next channel m) bytes' := by
  subst stack
  exact .cycle run decoded unnamed (step_eq_ok_of_failure?_eq_none success)

/-- **Over a run that does not name the stack pointer the memory holds a bounded stack.** -/
theorem lifo (h : StackRun channel image m bytes) : WorksAsStack channel m bytes where
  stackPointer_eq := by
    have := h.holds.stackPointer_add_length
    have ht : stackTop.toNat = 0xF4 := rfl
    omega
  length_le := by
    have := h.holds.stackPointer_add_length
    have ht : stackTop.toNat = 244 := rfl
    omega
  eq_stack := h.holds.stack_eq.symm
  pop_loads m' hd hn hs := by
    obtain ⟨hf, he⟩ := of_step_ok hd hs
    rw [he, Processor.value_effect_pop hf hn]
    exact h.holds.head?_eq (Processor.canPop_of_fault?_eq_none hf (.inl rfl))
  ret_jumps m' hd hs := by
    obtain ⟨hf, he⟩ := of_step_ok hd hs
    rw [he, h.holds.head?_eq (Processor.canPop_of_fault?_eq_none hf (.inr rfl))]
    rfl
  pops_fault_iff op hp hd ho := by
    have hn : m.processor.printed? op = none := by rcases hp with rfl | rfl <;> rfl
    rw [faultsOnStack_iff hd hn, h.holds.eq_nil_iff]
    exact Processor.exists_fault?_iff_of_pops hp ho
  pushes_fault_iff op hp hd ho hr hb := by
    have hn : m.processor.printed? op = none := by rcases hp with rfl | rfl <;> rfl
    have hl : bytes.length = 244 ↔ ¬ m.processor.CanPush := h.holds.length_eq_iff
    rw [faultsOnStack_iff hd hn, hl]
    exact Processor.exists_fault?_iff_of_pushes hp ho hr hb

/-- Two pushes of the stack pointer and two pops: the value that is pushed last comes back first. -/
theorem lifo_two_pushes_two_pops :
    let m := loaded [0x45, 0x07, 0x45, 0x07, 0x46, 0x00, 0x46, 0x01]
    let pushed := next .unbounded (next .unbounded m)
    let popped := next .unbounded pushed
    (StackRun .unbounded m.processor.memory pushed [0xF3, 0xF4] ∧
        WorksAsStack .unbounded pushed [0xF3, 0xF4] ∧
        popped.processor.registers.value 0 = 0xF3) ∧
      StackRun .unbounded m.processor.memory popped [0xF4] ∧
        WorksAsStack .unbounded popped [0xF4] ∧
        (next .unbounded popped).processor.registers.value 1 = 0xF4 := by
  intro m pushed popped
  have decoded : m.processor.decoded = .ok .push ∧
      (next .unbounded m).processor.decoded = .ok .push ∧
      pushed.processor.decoded = .ok .pop ∧ popped.processor.decoded = .ok .pop := by
    simp only [Processor.decoded_eq_ok_iff]
    decide +kernel
  have success : failure? .unbounded m = none ∧ failure? .unbounded (next .unbounded m) = none ∧
      failure? .unbounded pushed = none ∧ failure? .unbounded popped = none := by
    decide +kernel
  obtain ⟨push, push', pop, pop'⟩ := decoded
  obtain ⟨pushes, pushes', pops, pops'⟩ := success
  have start : StackRun .unbounded m.processor.memory m [] := .boot rfl
  have one : StackRun .unbounded m.processor.memory (next .unbounded m) [0xF4] :=
    start.of_success push (by decide +kernel) pushes (by decide +kernel)
  have two : StackRun .unbounded m.processor.memory pushed [0xF3, 0xF4] :=
    one.of_success push' (by decide +kernel) pushes' (by decide +kernel)
  have left : StackRun .unbounded m.processor.memory popped [0xF4] :=
    two.of_success pop (by decide +kernel) pops (by decide +kernel)
  have register : pushed.processor.peek 1 = 0 ∧ popped.processor.peek 1 = 1 := by decide +kernel
  have loads := two.lifo.pop_loads popped pop (by rw [register.1]; decide)
    (step_eq_ok_of_failure?_eq_none pops)
  have loads' := left.lifo.pop_loads (next .unbounded popped) pop' (by rw [register.2]; decide)
    (step_eq_ok_of_failure?_eq_none pops')
  rw [register.1] at loads
  rw [register.2] at loads'
  exact ⟨⟨two, two.lifo, (Option.some.inj loads).symm⟩, left, left.lifo,
    (Option.some.inj loads').symm⟩

end StackRun

end Machine

end ByteMachine
