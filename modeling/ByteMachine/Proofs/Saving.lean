import Mathlib.Data.List.Basic
import ByteMachine.Proofs.Stack

/-!
# Registers saved on the stack

Registers that are pushed one after the other come back if they are popped in the reverse order,
whatever became of them in between. The stack must have room for them, and its bottom is address
zero: a push with the stack pointer at zero fails.

* `Processor.save`, `Processor.restore`: registers to the stack and back.
* `Processor.HasRoom`, `Processor.withSaved`, **`Processor.run_save`**: saving, and what it needs.
* `Processor.Keeps`, **`Processor.keeps_withSaved`**: where the values are in the memory.
* `Processor.Restored`, **`Processor.exists_restored`**: what restoring comes to.
* **`Processor.run_restore_save`**: the round trip, and what happens if there is no room for it.
-/

namespace ByteMachine

namespace Processor

/-- Push registers, one after the other. -/
def save (names : List UInt8) : Action Processor Unit := forM names pushRegister

/-- Pop into registers, the last one first. -/
def restore (names : List UInt8) : Action Processor Unit := forM names.reverse popRegister

variable {p : Processor} {names : List UInt8}

/-! ## Saving -/

/-- The stack has room for `n` more bytes. -/
def HasRoom (p : Processor) (n : Nat) : Prop :=
  n ≤ p.registers.stackPointer.toNat ∧ p.registers.stackPointer ≤ stackTop

/-- The processor with the values of some registers on its stack. -/
def withSaved (p : Processor) : List UInt8 → Processor
  | [] => p
  | name :: rest => (p.pushed (p.registers.value name)).withSaved rest

theorem HasRoom.canPush {n : Nat} (h : p.HasRoom (n + 1)) : p.CanPush := by
  rw [canPush_iff]
  exact ⟨by have := h.1; omega, UInt8.le_iff_toNat_le.mp h.2⟩

theorem stackPointer_pushed (value : UInt8) :
    (p.pushed value).registers.stackPointer = p.registers.stackPointer - 1 :=
  Registers.stackPointer_setStackPointer _

theorem HasRoom.pushed {n : Nat} (h : p.HasRoom (n + 1)) (value : UInt8) :
    (p.pushed value).HasRoom n ∧
      (p.pushed value).registers.stackPointer.toNat = p.registers.stackPointer.toNat - 1 := by
  obtain ⟨room, low⟩ := h
  have hs := toNat_sub_one (HasRoom.canPush ⟨room, low⟩)
  rw [UInt8.le_iff_toNat_le] at low
  refine ⟨⟨?_, ?_⟩, ?_⟩
  · rw [stackPointer_pushed, hs]
    omega
  · rw [stackPointer_pushed, UInt8.le_iff_toNat_le, hs]
    omega
  · rw [stackPointer_pushed, hs]

theorem value_pushed {name : UInt8} (h : name ≠ stackRegister) (value : UInt8) :
    (p.pushed value).registers.value name = p.registers.value name :=
  Registers.value_setStackPointer_ne h _

theorem run_pushRegister_of_canPush {name : UInt8} (h : name.toNat < registerCount)
    (room : p.CanPush) :
    (pushRegister name).run p = .ok () (p.pushed (p.registers.value name)) := by
  refine (p.checked_pushRegister name).run_of_passed ?_
  rw [Datapath.registerCheck, Fault.unless_of_pos h, pushCheck, Fault.unless_of_pos room]
  rfl

theorem toNat_lt_registerCount {name : UInt8} (h : name < stackRegister) :
    name.toNat < registerCount :=
  Nat.lt_succ_of_lt (UInt8.lt_iff_toNat_lt.mp h)

/-- **Saving succeeds** if there is room for all registers. -/
theorem run_save (general : ∀ name ∈ names, name < stackRegister) (room : p.HasRoom names.length) :
    (save names).run p = .ok () (p.withSaved names) := by
  induction names generalizing p with
  | nil => rfl
  | cons name rest ih =>
    obtain ⟨first, others⟩ := List.forall_mem_cons.mp general
    rw [save, List.forM_cons, EStateM.run_bind,
      run_pushRegister_of_canPush (toNat_lt_registerCount first) room.canPush]
    exact ih others (room.pushed _).1

theorem stackPointer_withSaved (room : p.HasRoom names.length) :
    (p.withSaved names).registers.stackPointer.toNat =
      p.registers.stackPointer.toNat - names.length := by
  induction names generalizing p with
  | nil => rfl
  | cons name rest ih =>
    obtain ⟨more, hs⟩ := room.pushed (p.registers.value name)
    rw [withSaved, ih more, hs, List.length_cons]
    omega

/-! ## Where the values are -/

/-- **The memory keeps the values of registers** below the stack pointer, the first of them at the
top, and is as before everywhere else. -/
structure Keeps (p : Processor) (names : List UInt8) (memory : Ram) : Prop where
  slot : ∀ i name, names[i]? = some name →
    memory.get? (p.registers.stackPointer.toNat - 1 - i) = some (p.registers.value name)
  frame : ∀ address, address < p.registers.stackPointer.toNat - names.length ∨
    p.registers.stackPointer.toNat ≤ address → memory.get? address = p.memory.get? address

theorem Keeps.cons {name : UInt8} {rest : List UInt8} {memory : Ram}
    (others : ∀ name ∈ rest, name < stackRegister) (room : p.HasRoom (rest.length + 1))
    (h : (p.pushed (p.registers.value name)).Keeps rest memory) : p.Keeps (name :: rest) memory := by
  obtain ⟨-, hs⟩ := room.pushed (p.registers.value name)
  have top := toNat_sub_one room.canPush
  have enough := room.1
  refine ⟨fun i other hi => ?_, fun address outside => ?_⟩
  · cases i with
    | zero =>
      -- all other pushes are below the first one
      cases hi
      rw [h.frame _ (.inr (by omega)), Nat.sub_zero, ← top]
      exact Memory.get?_set_self (toNat_lt_ramSize _) _
    | succ i =>
      have below := h.slot i other hi
      rw [value_pushed (UInt8.ne_of_lt (others other (List.mem_of_getElem? hi))), hs] at below
      rw [← below]
      congr 1
      omega
  · rw [List.length_cons] at outside
    rw [h.frame _ (by omega)]
    exact Memory.get?_set_ne (by omega) _

theorem keeps_withSaved (general : ∀ name ∈ names, name < stackRegister)
    (room : p.HasRoom names.length) : p.Keeps names (p.withSaved names).memory := by
  induction names generalizing p with
  | nil => exact ⟨fun i name h => by simp at h, fun address _ => rfl⟩
  | cons name rest ih =>
    obtain ⟨-, others⟩ := List.forall_mem_cons.mp general
    exact (ih others (room.pushed _).1).cons others room

/-! ## Restoring -/

/-- **What restoring registers comes to**: they have the values from before they were saved, all
other registers those from right before they were restored, and the stack is what it was. -/
structure Restored (p : Processor) (names : List UInt8) (registers : Registers) (r : Processor) :
    Prop where
  value_of_mem : ∀ name ∈ names, r.registers.value name = p.registers.value name
  value_of_not_mem : ∀ name ∉ names, name ≠ stackRegister →
    r.registers.value name = registers.value name
  stackPointer_eq : r.registers.stackPointer = p.registers.stackPointer
  keeps : p.Keeps names r.memory
  rest : ∃ registers memory, r = { p with registers, memory }

theorem restore_cons (name : UInt8) (rest : List UInt8) :
    restore (name :: rest) = restore rest >>= fun _ => popRegister name := by
  simp [restore]

theorem run_popRegister_of_canPop {name : UInt8} (h : name.toNat < registerCount) (pops : p.CanPop) :
    (popRegister name).run p = .ok () { p with
      registers := (p.registers.set name p.topByte).setStackPointer
        ((if name = stackRegister then p.topByte else p.registers.stackPointer) + 1) } := by
  refine (p.checked_popRegister name).run_of_passed ?_
  rw [Datapath.registerCheck, Fault.unless_of_pos h, popCheck, Fault.unless_of_pos pops]
  rfl

theorem Restored.cons {name : UInt8} {rest : List UInt8} {registers : Registers} {r : Processor}
    (first : name < stackRegister) (others : ∀ name ∈ rest, name < stackRegister)
    (room : p.HasRoom (rest.length + 1))
    (h : (p.pushed (p.registers.value name)).Restored rest registers r) :
    ∃ r', (popRegister name).run r = .ok () r' ∧ p.Restored (name :: rest) registers r' := by
  have keeps := h.keeps.cons others room
  have sp := h.stackPointer_eq
  rw [stackPointer_pushed] at sp
  have address := toNat_sub_one room.canPush
  have pops : r.CanPop := by
    have := canPush_iff.mp room.canPush
    rw [canPop_iff, sp, address]
    omega
  have top : r.topByte = p.registers.value name := by
    have slot := keeps.slot 0 name rfl
    rw [topByte, sp, address, Memory.byte]
    rw [Nat.sub_zero] at slot
    rw [slot, Option.getD_some]
  have hn : name ≠ stackRegister := UInt8.ne_of_lt first
  refine ⟨_, run_popRegister_of_canPop (toNat_lt_registerCount first) pops, ?_, ?_, ?_, keeps, ?_⟩
  · intro other member
    dsimp only
    by_cases same : other = name
    · rw [same, Registers.value_setStackPointer_ne hn,
        Registers.value_set_self (toNat_lt_registerCount first), top]
    · have member := (List.mem_cons.mp member).resolve_left same
      have ho : other ≠ stackRegister := UInt8.ne_of_lt (others other member)
      rw [Registers.value_setStackPointer_ne ho, Registers.value_set_ne same,
        h.value_of_mem other member, value_pushed ho]
  · intro other hm ho
    rw [List.mem_cons, not_or] at hm
    dsimp only
    rw [Registers.value_setStackPointer_ne ho, Registers.value_set_ne hm.1,
      h.value_of_not_mem other hm.2 ho]
  · dsimp only
    rw [Registers.stackPointer_setStackPointer, if_neg hn, sp, UInt8.sub_add_cancel]
  · obtain ⟨registers, memory, rfl⟩ := h.rest
    exact ⟨_, _, rfl⟩

/-- **Restoring succeeds**, whatever has become of the registers, as long as the stack pointer is
where saving left it. -/
theorem exists_restored (general : ∀ name ∈ names, name < stackRegister)
    (room : p.HasRoom names.length) {registers : Registers}
    (kept : registers.stackPointer = (p.withSaved names).registers.stackPointer) :
    ∃ r, (restore names).run { p.withSaved names with registers } = .ok () r ∧
      p.Restored names registers r := by
  induction names generalizing p with
  | nil =>
    refine ⟨_, rfl, fun name h => absurd h List.not_mem_nil, fun name _ _ => rfl, kept,
      keeps_withSaved general room, _, _, rfl⟩
  | cons name rest ih =>
    obtain ⟨first, others⟩ := List.forall_mem_cons.mp general
    obtain ⟨r, run, restored⟩ := ih others (room.pushed _).1 kept
    obtain ⟨r', last, done⟩ := restored.cons first others room
    refine ⟨r', ?_, done⟩
    rw [restore_cons, EStateM.run_bind, withSaved, run]
    exact last

/-! ## Without room, and into the stack pointer -/

theorem run_pushRegister_of_zero {name : UInt8} (h : name.toNat < registerCount)
    (zero : p.registers.stackPointer = 0) :
    (pushRegister name).run p = .error (.outOfBounds .stack 0) p := by
  have full : ¬ p.CanPush := by
    rw [not_canPush_iff]
    exact .inl zero
  refine (p.checked_pushRegister name).run_of_failed ?_
  rw [Datapath.registerCheck, Fault.unless_of_pos h, pushCheck, Fault.unless_of_neg full, stackFault,
    zero]
  rfl

/-- **Saving more registers than there is room for** fails once the stack pointer is at zero. -/
theorem exists_full (general : ∀ name ∈ names, name < stackRegister)
    (low : p.registers.stackPointer ≤ stackTop)
    (exceeds : p.registers.stackPointer.toNat < names.length) :
    ∃ before name rest full, names = before ++ name :: rest ∧
      before.length = p.registers.stackPointer.toNat ∧ (save before).run p = .ok () full ∧
      (pushRegister name).run full = .error (.outOfBounds .stack 0) full ∧
      (save names).run p = .error (.outOfBounds .stack 0) full := by
  obtain ⟨before, name, rest, hn, hl⟩ : ∃ before name rest, names = before ++ name :: rest ∧
      before.length = p.registers.stackPointer.toNat := by
    refine ⟨names.take p.registers.stackPointer.toNat, names[p.registers.stackPointer.toNat],
      names.drop (p.registers.stackPointer.toNat + 1), ?_,
      List.length_take_of_le (Nat.le_of_lt exceeds)⟩
    rw [← List.drop_eq_getElem_cons exceeds, List.take_append_drop]
  subst hn
  have general' : ∀ name ∈ before, name < stackRegister :=
    fun name h => general name (List.mem_append_left _ h)
  have room : p.HasRoom before.length := ⟨Nat.le_of_eq hl, low⟩
  have saved := run_save general' room
  have zero : (p.withSaved before).registers.stackPointer = 0 := by
    rw [← UInt8.toNat_inj, stackPointer_withSaved room, hl, Nat.sub_self]
    rfl
  have stuck := run_pushRegister_of_zero (toNat_lt_registerCount (general name (by simp))) zero
  refine ⟨before, name, rest, _, rfl, hl, saved, stuck, ?_⟩
  rw [save, List.forM_append, EStateM.run_bind, ← save, saved]
  dsimp only
  rw [List.forM_cons, EStateM.run_bind, stuck]

/-- A byte that is pushed and then popped into the stack pointer ends up there plus one. -/
theorem exists_popped (room : p.CanPush) (value : UInt8) {registers : Registers}
    (kept : registers.stackPointer = (p.pushed value).registers.stackPointer) :
    ∃ r, (popRegister stackRegister).run { p.pushed value with registers } = .ok () r ∧
      r.registers.stackPointer = value + 1 := by
  have address := toNat_sub_one room
  rw [stackPointer_pushed] at kept
  have pops : { p.pushed value with registers }.CanPop := by
    have := canPush_iff.mp room
    rw [canPop_iff]
    dsimp only
    rw [kept, address]
    omega
  refine ⟨_, run_popRegister_of_canPop (by decide) pops, ?_⟩
  dsimp only
  rw [Registers.stackPointer_setStackPointer, if_pos rfl, topByte]
  dsimp only
  rw [kept]
  exact congrArg (· + 1) (Memory.byte_set_self (toNat_lt_ramSize _) value)

/-- **Registers saved on the stack come back** in the reverse order, whatever becomes of the others
and of themselves in between. The stack has room for as many of them as its pointer says, and a byte
that is popped into the stack pointer is not its last value. -/
theorem run_restore_save (p : Processor) (low : p.registers.stackPointer ≤ stackTop)
    {names : List UInt8} (general : ∀ name ∈ names, name < stackRegister) :
    (names.length ≤ p.registers.stackPointer.toNat →
      ∃ q, (save names).run p = .ok () q ∧ p.Keeps names q.memory ∧
        ∀ registers : Registers, registers.stackPointer = q.registers.stackPointer →
          ∃ r, (restore names).run { q with registers } = .ok () r ∧
            p.Restored names registers r) ∧
    (p.registers.stackPointer.toNat < names.length →
      ∃ before name rest full, names = before ++ name :: rest ∧
        before.length = p.registers.stackPointer.toNat ∧ (save before).run p = .ok () full ∧
        (pushRegister name).run full = .error (.outOfBounds .stack 0) full ∧
        (save names).run p = .error (.outOfBounds .stack 0) full) ∧
    (1 ≤ p.registers.stackPointer → ∀ value,
      ∃ q, (push value).run p = .ok () q ∧
        (∀ name, name.toNat < registerCount → p.registers.value name = value →
          (pushRegister name).run p = .ok () q) ∧
        ∀ registers : Registers, registers.stackPointer = q.registers.stackPointer →
          ∃ r, (popRegister stackRegister).run { q with registers } = .ok () r ∧
            r.registers.stackPointer.toNat = (value.toNat + 1) % 256) := by
  refine ⟨fun fits => ?_, exists_full general low, fun first value => ?_⟩
  · have room : p.HasRoom names.length := ⟨fits, low⟩
    exact ⟨_, run_save general room, keeps_withSaved general room,
      fun registers kept => exists_restored general room kept⟩
  · have room : p.CanPush := ⟨first, low⟩
    refine ⟨p.pushed value, (p.checked_push value).run_of_passed (Fault.unless_of_pos room), ?_, ?_⟩
    · rintro name h rfl
      exact run_pushRegister_of_canPush h room
    · intro registers kept
      obtain ⟨r, run, sp⟩ := exists_popped room value kept
      exact ⟨r, run, by rw [sp, UInt8.toNat_add]; rfl⟩

/-- Two registers, one of them twice, with everything overwritten in between, the same with room for
two values only, and a value popped into the stack pointer. -/
theorem run_restore_save_twice :
    let p : Processor := { boot (.zero ramSize) with registers := ⟨#v[10, 20, 30, 0, 0, 0, 0, 3]⟩ }
    let names : List UInt8 := [0, 2, 0]
    let p' : Processor := { p with registers := p.registers.setStackPointer 2 }
    (∃ q, (save names).run p = .ok () q ∧ p.Keeps names q.memory ∧
      ∃ r, (restore names).run { q with registers := ⟨#v[7, 7, 7, 7, 7, 7, 7, 0]⟩ } = .ok () r ∧
        p.Restored names ⟨#v[7, 7, 7, 7, 7, 7, 7, 0]⟩ r) ∧
      (∃ full, (save names).run p' = .error (.outOfBounds .stack 0) full) ∧
      ∃ q, (push 255).run p = .ok () q ∧
        ∃ r, (popRegister stackRegister).run q = .ok () r ∧
          r.registers.stackPointer.toNat = 0 := by
  intro p names p'
  have general : ∀ name ∈ names, name < stackRegister := by simp [names, stackRegister]
  obtain ⟨fits, -, popped⟩ := run_restore_save p (by decide) general
  obtain ⟨-, exceeds, -⟩ := run_restore_save p' (by decide) general
  obtain ⟨q, saved, keeps, restores⟩ := fits (by decide)
  obtain ⟨before, name, rest, full, -, -, -, -, failed⟩ := exceeds (by decide)
  obtain ⟨q', pushed, -, counted⟩ := popped (by decide) 255
  have sp : q.registers.stackPointer = 0 := by
    rw [run_save general ⟨by decide, by decide⟩] at saved
    cases saved
    decide
  exact ⟨⟨q, saved, keeps, restores _ sp.symm⟩, ⟨full, failed⟩, q', pushed, counted _ rfl⟩

end Processor

end ByteMachine
