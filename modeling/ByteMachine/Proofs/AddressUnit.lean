import ByteMachine.Proofs.Counter
import ByteMachine.Proofs.Stack

/-!
# Arithmetic on addresses

An instruction adds small numbers to the program counter, and moves the stack pointer up or down by
one. Here it does so through an address unit, which may go wrong in any way: stop with a fault, come
to another number, or change the processor. As long as the program counter is in the memory or right
behind it, nothing of that is ever seen, if only the unit is right in the range where no sum exceeds
259 and the stack pointer is in its bounds. In particular nothing overflows.

* `AddressUnit`, `AddressUnit.execute`: instructions over an address unit.
* `AddressUnit.execute_exact`: the machine's own instructions are those over the exact unit.
* `AddressUnit.RightInRange`, **`AddressUnit.run_execute`**: what the unit has to get right.
* **`Processor.Disturbed.safe`**: no cycle leaves the range, whatever is done between cycles.
-/

namespace ByteMachine

/-- **Arithmetic on addresses**, which may go wrong. -/
structure AddressUnit where
  /-- The address so many bytes behind an address. -/
  add : Nat → Nat → Action Processor Nat
  /-- The stack pointer of a stack with one more byte. -/
  pred : UInt8 → Action Processor UInt8
  /-- The stack pointer of a stack with one byte less. -/
  succ : UInt8 → Action Processor UInt8

namespace AddressUnit

/-! ## Instructions over an address unit -/

section Instructions

variable {σ : Type} (unit : AddressUnit)

def operand (n : Nat) : Action Processor UInt8 := do
  let address ← unit.add (← get).counter n
  Processor.onMemory (Memory.read address)

def push (value : UInt8) : Action Processor Unit := do
  let sp := (← get).registers.stackPointer
  if sp = 0 ∨ stackTop < sp then throw (.outOfBounds .stack sp.toNat)
  let below ← unit.pred sp
  Processor.onMemory (Memory.write below.toNat value)
  Processor.setStackPointer below

def pushRegister (index : UInt8) : Action Processor Unit := do
  unit.push (← Processor.readRegister index)

def pop : Action Processor UInt8 := do
  let value ← Processor.top
  let above ← unit.succ (← get).registers.stackPointer
  Processor.setStackPointer above
  pure value

open Machine in
/-- The effect of an operation. Only a pop into a register moves the stack pointer without the unit:
it is meant to wrap there. -/
def perform (channel : Channel σ) : Opcode → Action (Machine σ) String
  | .hlt => Machine.perform channel .hlt
  | .ldi => do
    let a ← unit.operand 1
    let value ← unit.operand 2
    Processor.writeRegister a value
    pure ("LDI " ++ registerName a ++ " " ++ Nat.repr value.toNat)
  | .prn => do
    let a ← unit.operand 1
    let value ← Processor.readRegister a
    print channel (Nat.repr value.toNat ++ "\n")
    pure ("PRN " ++ registerName a ++ ": " ++ Nat.repr value.toNat)
  | .push => do
    let a ← unit.operand 1
    unit.pushRegister a
    let sp := (← get).processor.registers.stackPointer
    pure ("PUSH " ++ registerName a ++ ": SP 0x" ++ Hex.upper sp.toNat)
  | .pop => do
    let a ← unit.operand 1
    Processor.popRegister a
    let sp := (← get).processor.registers.stackPointer
    pure ("POP " ++ registerName a ++ ": SP 0x" ++ Hex.upper sp.toNat)
  | .call => do
    let a ← unit.operand 1
    let target ← Processor.readRegister a
    let back ← unit.add (← get).processor.counter Opcode.call.width
    if 256 ≤ back then throw (.outOfBounds .memory back)
    unit.push (UInt8.ofNat back)
    Processor.jump target.toNat
    pure ("CALL " ++ registerName a ++ ": 0x" ++ Hex.upper target.toNat)
  | .ret => do
    let target ← unit.pop
    Processor.jump target.toNat
    pure ("RET 0x" ++ Hex.upper target.toNat)
  | op@(.inc) | op@(.dec) => do
    let alu ← Alu.ofOpcode op
    let a ← unit.operand 1
    Processor.onDatapath (alu.unary a)
    pure (op.mnemonic ++ " " ++ registerName a)
  | op@(.add) | op@(.sub) | op@(.mul) | op@(.cmp) => do
    let alu ← Alu.ofOpcode op
    let a ← unit.operand 1
    let b ← unit.operand 2
    Processor.onDatapath (alu.binary a b)
    pure (op.mnemonic ++ " " ++ registerName a ++ " " ++ registerName b)

def execute (channel : Channel σ) (op : Opcode) : Action (Machine σ) Unit := do
  let note ← unit.perform channel op
  Machine.log .debug note
  unless op.setsCounter do
    let next ← unit.add (← get).processor.counter op.width
    Processor.jump next

end Instructions

/-- The address unit that never goes wrong: addresses are numbers of any size, and stack pointers
are counted modulo 256. -/
def exact : AddressUnit where
  add address n := pure (address + n)
  pred sp := pure (sp - 1)
  succ sp := pure (sp + 1)

/-- The machine's own instructions are those over the exact unit. -/
theorem execute_exact {σ : Type} (channel : Channel σ) (op : Opcode) :
    exact.execute channel op = Machine.execute channel op := by
  cases op <;> rfl

/-! ## What a unit has to get right -/

/-- The unit is right on sums up to 259, below a stack pointer from 1 to `0xF4`, and above one that
is less than `0xF4`. There no result wraps around. -/
structure RightInRange (unit : AddressUnit) : Prop where
  add_eq : ∀ address n, address + n ≤ 259 → unit.add address n = pure (address + n)
  pred_eq : ∀ sp : UInt8, 1 ≤ sp.toNat → sp.toNat ≤ 0xF4 →
    unit.pred sp = pure (UInt8.ofNat (sp.toNat - 1))
  succ_eq : ∀ sp : UInt8, sp.toNat < 0xF4 → unit.succ sp = pure (UInt8.ofNat (sp.toNat + 1))

section RightInRange

variable {unit : AddressUnit} (right : unit.RightInRange)
include right

theorem run_push (value : UInt8) (p : Processor) :
    (unit.push value).run p = (Processor.push value).run p := by
  by_cases h : p.CanPush
  · have hs := p.not_canPush_iff.not.mp (not_not.mpr h)
    have hsub : UInt8.ofNat (p.registers.stackPointer.toNat - 1) = p.registers.stackPointer - 1 := by
      rw [← Processor.toNat_sub_one h, UInt8.ofNat_toNat]
    rw [Processor.canPush_iff] at h
    unfold push Processor.push
    simp only [EStateM.run_bind, EStateM.run_get, if_neg hs, right.pred_eq _ h.1 h.2, hsub]
    rfl
  · have hs := Processor.not_canPush_iff.mp h
    unfold push Processor.push
    simp only [EStateM.run_bind, EStateM.run_get, if_pos hs]
    rfl

theorem run_pushRegister (index : UInt8) (p : Processor) :
    (unit.pushRegister index).run p = (Processor.pushRegister index).run p :=
  Action.run_bind_congr rfl fun value p' _ => run_push right value p'

theorem run_pop (p : Processor) : unit.pop.run p = Processor.pop.run p := by
  refine Action.run_bind_congr rfl fun value p' h => ?_
  have hc : p.CanPop := Fault.unless_eq_none_iff.mp (p.checked_top.eq_none_of_ok h)
  obtain ⟨-, rfl⟩ := p.checked_top.eq_of_ok h
  have hadd : UInt8.ofNat (p'.registers.stackPointer.toNat + 1) = p'.registers.stackPointer + 1 := by
    rw [← Processor.toNat_add_one hc, UInt8.ofNat_toNat]
  have hs := right.succ_eq _ (Processor.canPop_iff.mp hc)
  simp only [EStateM.run_bind, EStateM.run_get, hs, hadd]
  rfl

theorem run_operand {p : Processor} {n : Nat} (h : p.counter + n ≤ 259) :
    (unit.operand n).run p = (Processor.operand n).run p := by
  unfold operand Processor.operand
  simp only [EStateM.run_bind, EStateM.run_get, right.add_eq _ _ h]
  rfl

/-! ## Instructions in the range -/

variable {σ : Type} {m : Machine σ}

theorem run_bind_operand {α : Type} {n : Nat} {k l : UInt8 → Action (Machine σ) α}
    (hn : m.processor.counter + n ≤ 259) (h : ∀ a, (k a).run m = (l a).run m) :
    ((liftM (unit.operand n) : Action (Machine σ) UInt8) >>= k).run m =
      ((liftM (Processor.operand n) : Action (Machine σ) UInt8) >>= l).run m := by
  refine Action.run_bind_congr (Machine.run_lift_congr (run_operand right hn)) fun a m' ho => ?_
  obtain ⟨-, rfl⟩ := (Machine.checked_lift (m.processor.checked_operand n)).eq_of_ok ho
  exact h a

theorem run_bind_add {α : Type} {n : Nat} (hn : m.processor.counter + n ≤ 259)
    (k : Nat → Action (Machine σ) α) :
    ((get : Action (Machine σ) (Machine σ)) >>= fun s =>
      (liftM (unit.add s.processor.counter n) : Action (Machine σ) Nat) >>= k).run m =
        (k (m.processor.counter + n)).run m := by
  simp only [EStateM.run_bind, EStateM.run_get, right.add_eq _ _ hn]
  rfl

theorem run_perform (channel : Channel σ) (h : m.processor.counter ≤ ramSize) (op : Opcode) :
    (unit.perform channel op).run m = (Machine.perform channel op).run m := by
  have h1 : m.processor.counter + 1 ≤ 259 := by unfold ramSize at h; omega
  have h2 : m.processor.counter + 2 ≤ 259 := by unfold ramSize at h; omega
  cases op with
  | hlt => rfl
  | ldi =>
    exact run_bind_operand right h1 fun _ => run_bind_operand right h2 fun _ => rfl
  | prn => exact run_bind_operand right h1 fun _ => rfl
  | push =>
    exact run_bind_operand right h1 fun index =>
      Action.run_bind_congr (Machine.run_lift_congr (run_pushRegister right index _)) fun _ _ _ => rfl
  | pop => exact run_bind_operand right h1 fun _ => rfl
  | call =>
    refine run_bind_operand right h1 fun index => Action.run_bind_congr rfl fun target m' hr => ?_
    obtain ⟨-, rfl⟩ :=
      (Machine.checked_lift (m.processor.checked_readRegister index)).eq_of_ok hr
    refine (run_bind_add right h2 _).trans ?_
    change _ = EStateM.run (if 256 ≤ m.processor.counter + 2 then _ else _) _
    rw [Action.run_ite, Action.run_ite]
    split_ifs
    · rfl
    · exact Action.run_bind_congr (Machine.run_lift_congr (run_push right _ _)) fun _ _ _ => rfl
  | ret =>
    exact Action.run_bind_congr (Machine.run_lift_congr (run_pop right _)) fun _ _ _ => rfl
  | inc | dec =>
    exact run_bind_operand right h1 fun _ => rfl
  | add | sub | mul | cmp =>
    exact run_bind_operand right h1 fun _ => run_bind_operand right h2 fun _ => rfl

/-- **The unit has to be right in the range only**, as long as the program counter is in the memory
or right behind it. -/
theorem run_execute (channel : Channel σ) (h : m.processor.counter ≤ ramSize) (op : Opcode) :
    (unit.execute channel op).run m = (Machine.execute channel op).run m := by
  refine Action.run_bind_congr (run_perform right channel h op) fun note m' hp => ?_
  refine Action.run_bind_congr rfl fun _ m'' hl => ?_
  cases hs : op.setsCounter with
  | true => rfl
  | false =>
    -- neither the operation nor the record of it has moved the program counter
    have hc : m''.processor.counter = m.processor.counter := by
      have hc' := Machine.counter_of_perform_ok hs hp
      cases hl
      exact hc'
    refine (run_bind_add right ?_ _).trans rfl
    rw [hc]
    unfold ramSize at h
    have hw := op.width_le
    omega

end RightInRange

/-- The unit that stops with a fault as soon as the range is left. -/
def guarded : AddressUnit where
  add address n :=
    if address + n ≤ 259 then pure (address + n) else throw (.outOfBounds .memory (address + n))
  pred sp :=
    if 1 ≤ sp.toNat ∧ sp.toNat ≤ 0xF4 then pure (UInt8.ofNat (sp.toNat - 1))
    else throw (.outOfBounds .stack sp.toNat)
  succ sp :=
    if sp.toNat < 0xF4 then pure (UInt8.ofNat (sp.toNat + 1))
    else throw (.outOfBounds .stack sp.toNat)

theorem rightInRange_guarded : guarded.RightInRange where
  add_eq _ _ h := if_pos h
  pred_eq _ low high := if_pos ⟨low, high⟩
  succ_eq _ h := if_pos h

end AddressUnit

/-! ## The range is never left -/

namespace Processor

/-- **All arithmetic on addresses stays in a small range**, and no stack operation leaves the
memory. -/
structure AddressesSafe (p : Processor) : Prop where
  counter_le : p.counter ≤ 256
  /-- No sum with the program counter exceeds 259, and the stack pointer is moved within its bounds
  only: an address unit may do anything else where that is not so. -/
  execute_eq : ∀ unit : AddressUnit, unit.RightInRange → ∀ {σ : Type} (channel : Channel σ)
    (m : Machine σ) (op : Opcode), m.processor = p →
      (unit.execute channel op).run m = (Machine.execute channel op).run m
  push_eq : ∀ unit : AddressUnit, unit.RightInRange → ∀ value,
    (unit.push value).run p = (push value).run p
  pushRegister_eq : ∀ unit : AddressUnit, unit.RightInRange → ∀ index,
    (unit.pushRegister index).run p = (pushRegister index).run p
  pop_eq : ∀ unit : AddressUnit, unit.RightInRange → unit.pop.run p = pop.run p
  call_inside : ∀ (call : StackCall) (address : Nat) (p' : Processor),
    call.action.run p ≠ .error (.outOfBounds .memory address) p'

namespace Disturbed

/-- **Whatever is done between cycles, all arithmetic on addresses stays in its range.** -/
theorem safe {p : Processor} (h : p.Disturbed) : p.AddressesSafe where
  counter_le := h.counter_le
  execute_eq unit right σ channel m op hm :=
    AddressUnit.run_execute right channel (hm ▸ h.counter_le) op
  push_eq unit right value := AddressUnit.run_push right value p
  pushRegister_eq unit right index := AddressUnit.run_pushRegister right index p
  pop_eq unit right := AddressUnit.run_pop right p
  call_inside call address p' hc := by
    obtain ⟨registers, memory, checked⟩ := call.checked_action p
    exact call.fault?_ne_memory p address (checked.eq_some_of_error hc)

/-- A call to the last byte of the memory and a halt there, a cycle behind the memory that fails, and
a push from outside. -/
theorem safe_behind_memory :
    ∃ p : Processor, p.Disturbed ∧ p.counter = 256 ∧ p.halted = true ∧ p.AddressesSafe ∧
      (AddressUnit.guarded.execute .unbounded .ldi).run ⟨p, "", #[]⟩ =
        (Machine.execute .unbounded .ldi).run ⟨p, "", #[]⟩ := by
  let p := { Processor.boot (((Memory.zero ramSize).set 0 0x50).set 0xFF 0x01) with
    registers := Registers.initial.set 0 0xFF }
  let m : Machine String := ⟨p, "", #[]⟩
  have hd : m.processor.decoded = .ok .call := decoded_eq_ok_iff.mpr (by decide +kernel)
  have called : (m.next .unbounded).processor = p.effect .call :=
    (Machine.next_of_silent hd rfl (by decide +kernel)).2
  have hd' : (m.next .unbounded).processor.decoded = .ok .hlt :=
    decoded_eq_ok_iff.mpr (by rw [called]; decide +kernel)
  have halted : ((m.next .unbounded).next .unbounded).processor = (p.effect .call).effect .hlt := by
    rw [(Machine.next_of_silent hd' rfl (by rw [called]; decide +kernel)).2, called]
  have failed : (((m.next .unbounded).next .unbounded).next .unbounded).processor =
      { (p.effect .call).effect .hlt with halted := true } := by
    obtain ⟨-, op, hd'', -⟩ | ⟨fault, -, he⟩ :=
      Machine.next_cases .unbounded ((m.next .unbounded).next .unbounded)
    · have := counter_lt_of_decoded hd''
      rw [halted] at this
      exact absurd this (by decide +kernel)
    · rw [he, halted]
  have loaded : m.processor.Disturbed := .change (.boot p.memory) p.registers {} p.memory false
  have before := Disturbed.cycle .unbounded (.cycle .unbounded (.cycle .unbounded loaded))
  generalize ((m.next .unbounded).next .unbounded).next .unbounded = q at failed before
  have pushed : (StackCall.push 7).action.run q.processor = .ok () (q.processor.pushed 7) :=
    (q.processor.checked_push 7).run_of_passed (by rw [failed]; decide +kernel)
  have safe := (before.called _ pushed).safe
  have behind : q.processor.counter = 256 := by
    rw [failed]
    decide +kernel
  have stopped : q.processor.halted = true := by rw [failed]
  exact ⟨q.processor.pushed 7, before.called _ pushed, behind, stopped, safe,
    safe.execute_eq _ AddressUnit.rightInRange_guarded _ _ _ rfl⟩

end Disturbed

end Processor

end ByteMachine
