import Mathlib.Data.Set.Insert
import Mathlib.Order.BooleanAlgebra.Set
import ByteMachine.Proofs.Run
import ByteMachine.Proofs.Stack

/-!
# What a run does not read

A cycle depends on the memory only through the bytes that it reads: the operation, its operands, and
the byte that it takes off the stack. So two runs whose memories differ only where the first never
looks, except at bytes that it has pushed there itself, cannot be told apart.

* `Processor.Reads`: the addresses that a cycle reads.
* `Processor.AgreeOutside`, **`Processor.AgreeOutside.effect`**: processors with the same memory
  outside a set of addresses, and what an instruction makes of them.
* `Machine.AgreeOutside.next`: two cycles side by side.
* **`Machine.agreeOutside_after`**: two runs side by side.
-/

namespace ByteMachine

namespace Processor

/-- **The addresses that a cycle reads**, as far as they are in the memory: that of the operation,
those of its operands, and that of the byte on top of the stack if the cycle comes to pop it. -/
inductive Reads (p : Processor) : Nat → Prop
  | operation (inside : p.counter < ramSize) : p.Reads p.counter
  | operand {op : Opcode} {k : Nat} (decoded : p.decoded = .ok op) (first : 1 ≤ k)
      (last : k ≤ op.operandCount) (inside : p.counter + k < ramSize) : p.Reads (p.counter + k)
  | popped {op : Opcode} (decoded : p.decoded = .ok op) (pops : op.Pops)
      (operands : p.strayOperand? op = none) (full : p.CanPop) :
      p.Reads p.registers.stackPointer.toNat

theorem Reads.le_or_eq {p : Processor} {op : Opcode} {address : Nat} (hd : p.decoded = .ok op)
    (hr : p.Reads address) :
    (p.counter ≤ address ∧ address ≤ p.counter + op.operandCount) ∨
      (op.Pops ∧ address = p.registers.stackPointer.toNat) := by
  cases hr with
  | operation => exact .inl ⟨Nat.le_refl _, Nat.le_add_right _ _⟩
  | operand hd' _ last =>
    obtain rfl := Except.ok.inj (hd.symm.trans hd')
    exact .inl ⟨Nat.le_add_right _ _, Nat.add_le_add_left last _⟩
  | popped hd' pops =>
    obtain rfl := Except.ok.inj (hd.symm.trans hd')
    exact .inr ⟨pops, rfl⟩

/-- Two processors that are the same but for the memory at some addresses. -/
structure AgreeOutside (unseen : Set Nat) (p q : Processor) : Prop where
  registers_eq : p.registers = q.registers
  flags_eq : p.flags = q.flags
  counter_eq : p.counter = q.counter
  halted_eq : p.halted = q.halted
  get?_eq : ∀ address ∉ unseen, p.memory.get? address = q.memory.get? address

namespace AgreeOutside

variable {unseen : Set Nat} {p q : Processor} {op : Opcode}

theorem eq_with_memory (h : AgreeOutside unseen p q) : q = { p with memory := q.memory } := by
  obtain ⟨⟨r, f⟩, c, m, t⟩ := p
  obtain ⟨⟨r', f'⟩, c', m', t'⟩ := q
  obtain ⟨rfl, rfl, rfl, rfl, -⟩ := h
  rfl

theorem mono {seen : Set Nat} (h : AgreeOutside unseen p q) (hs : unseen ⊆ seen) :
    AgreeOutside seen p q :=
  { h with get?_eq := fun address ha => h.get?_eq address fun hu => ha (hs hu) }

theorem halt (h : AgreeOutside unseen p q) :
    AgreeOutside unseen { p with halted := true } { q with halted := true } :=
  { h with halted_eq := rfl }

section Unread

variable (h : AgreeOutside unseen p q) (unread : ∀ address ∈ unseen, ¬ p.Reads address)
include h unread

theorem get?_of_reads {address : Nat} (hr : address < ramSize → p.Reads address) :
    p.memory.get? address = q.memory.get? address := by
  by_cases ha : address < ramSize
  · exact h.get?_eq address fun hu => unread address hu (hr ha)
  · rw [Memory.get?_of_le (Nat.le_of_not_lt ha), Memory.get?_of_le (Nat.le_of_not_lt ha)]

theorem decoded_eq : p.decoded = q.decoded := by
  unfold decoded
  rw [h.get?_of_reads unread .operation, h.counter_eq]

variable (hd : p.decoded = .ok op)
include hd

theorem peek_eq {k : Nat} (first : 1 ≤ k) (last : k ≤ op.operandCount) : p.peek k = q.peek k := by
  unfold peek
  rw [h.get?_of_reads unread (.operand hd first last), h.counter_eq]

theorem fault?_eq : p.fault? op = q.fault? op := by
  have peek (k : Nat) := h.peek_eq unread hd (k := k)
  have hq := h.eq_with_memory
  have operand (k : Nat) : q.operandCheck k = p.operandCheck k := by rw [hq]; rfl
  have push : q.pushCheck = p.pushCheck := by rw [hq]; rfl
  have pop : q.popCheck = p.popCheck := by rw [hq]; rfl
  have back : q.returnCheck = p.returnCheck := by rw [hq]; rfl
  rw [Processor.fault?_eq, Processor.fault?_eq]
  cases op with
  | hlt => rfl
  | ret => exact pop.symm
  | push | pop | prn | call | inc | dec =>
    simp only [operand, push, pop, back, peek 1 (by decide) (by decide)]
  | ldi =>
    simp only [operand, peek 1 (by decide) (by decide)]
  | add | sub | mul | cmp =>
    simp only [operand, peek 1 (by decide) (by decide), peek 2 (by decide) (by decide)]

theorem printed?_eq : p.printed? op = q.printed? op := by
  cases op with
  | prn =>
    unfold printed?
    rw [h.peek_eq unread hd (by decide) (by decide), h.registers_eq]
  | _ => rfl

theorem pushed?_eq : p.pushed? op = q.pushed? op := by
  cases op with
  | push =>
    unfold pushed?
    rw [h.peek_eq unread hd (by decide) (by decide), h.registers_eq]
  | call =>
    unfold pushed?
    rw [h.counter_eq]
  | _ => rfl

variable (hf : p.fault? op = none)
include hf

theorem topByte_eq (hp : op.Pops) : p.topByte = q.topByte := by
  have operands : p.strayOperand? op = none := by
    simp only [fault?, Option.or_eq_none_iff] at hf
    exact hf.1
  have full := canPop_of_fault?_eq_none hf hp
  unfold topByte Memory.byte
  rw [h.get?_of_reads unread fun _ => .popped hd hp operands full, h.registers_eq]

theorem registersAfter_eq : p.registersAfter op = q.registersAfter op := by
  have peek (k : Nat) := h.peek_eq unread hd (k := k)
  have top := h.topByte_eq unread hd hf
  unfold registersAfter
  rw [h.registers_eq]
  cases op with
  | hlt | prn | cmp | push | call | ret => rfl
  | ldi | add | sub | mul =>
    simp only [peek 1 (by decide) (by decide), peek 2 (by decide) (by decide)]
  | inc | dec => simp only [peek 1 (by decide) (by decide)]
  | pop => simp only [peek 1 (by decide) (by decide), top (.inl rfl)]

theorem flagsAfter_eq : p.flagsAfter op = q.flagsAfter op := by
  cases op with
  | cmp =>
    unfold flagsAfter
    rw [h.peek_eq unread hd (k := 1) (by decide) (by decide),
      h.peek_eq unread hd (k := 2) (by decide) (by decide), h.registers_eq]
  | _ => exact h.flags_eq

theorem counterAfter_eq : p.counterAfter op = q.counterAfter op := by
  unfold counterAfter
  cases op with
  | call =>
    dsimp only
    rw [h.peek_eq unread hd (by decide) (by decide), h.registers_eq]
  | ret =>
    dsimp only
    rw [h.topByte_eq unread hd hf (.inr rfl)]
  | _ =>
    dsimp only
    rw [h.counter_eq]

/-- **An instruction leaves two processors in agreement**, and where it stores a byte they agree
from then on. -/
theorem effect :
    AgreeOutside (unseen \ { address | op.Pushes ∧ address = (p.registers.stackPointer - 1).toNat })
      (p.effect op) (q.effect op) where
  registers_eq := h.registersAfter_eq unread hd hf
  flags_eq := h.flagsAfter_eq unread hd hf
  counter_eq := h.counterAfter_eq unread hd hf
  halted_eq := by
    change p.haltedAfter op = q.haltedAfter op
    unfold haltedAfter
    rw [h.halted_eq]
  get?_eq address ha := by
    change (p.memoryAfter op).get? address = (q.memoryAfter op).get? address
    unfold memoryAfter
    rw [← h.pushed?_eq unread hd, ← h.registers_eq]
    cases hv : p.pushed? op with
    | none =>
      have hp : ¬ op.Pushes := by
        rw [← pushed?_isSome_iff (p := p), hv]
        exact Bool.false_ne_true
      exact h.get?_eq address fun hu => ha ⟨hu, fun hs => hp hs.1⟩
    | some value =>
      have hp : op.Pushes := pushed?_isSome_iff.mp (by rw [hv]; rfl)
      dsimp only
      rw [Memory.get?_set, Memory.get?_set]
      split_ifs with hs
      · rfl
      · refine h.get?_eq address fun hu => ha ⟨hu, fun hs' => hs ⟨hs'.2, ?_⟩⟩
        rw [hs'.2]
        exact toNat_lt_ramSize _

end Unread

end AgreeOutside

end Processor

/-! ## Cycles and runs side by side -/

namespace Machine

variable {σ : Type}

/-- Two machines that are the same but for their journals and for the memory at some addresses. -/
structure AgreeOutside (unseen : Set Nat) (m m' : Machine σ) : Prop where
  processor : m.processor.AgreeOutside unseen m'.processor
  output_eq : m.output = m'.output

section Stores

variable (channel : Channel σ) (m : Machine σ)

/-- The addresses at which the next cycle stores: a push or a call that succeeds does so right below
the stack pointer. -/
def stores : Set Nat :=
  { address | failure? channel m = none ∧ ∃ op, m.processor.decoded = .ok op ∧ op.Pushes ∧
    address = (m.processor.registers.stackPointer - 1).toNat }

/-- The addresses at which the first `k` cycles store. -/
def storedBefore (k : Nat) : Set Nat :=
  { address | ∃ j < k, address ∈ stores channel (after channel m j) }

theorem storedBefore_zero : storedBefore channel m 0 = ∅ := by
  ext address
  simp [storedBefore]

theorem storedBefore_succ (k : Nat) :
    storedBefore channel m (k + 1) =
      storedBefore channel m k ∪ stores channel (after channel m k) := by
  ext address
  simp only [storedBefore, Set.mem_ofPred_eq, Set.mem_union, Nat.lt_succ_iff_lt_or_eq, or_and_right,
    exists_or, exists_eq_left]

end Stores

namespace AgreeOutside

variable {unseen : Set Nat} {m m' : Machine σ}

theorem outcome {p q : Processor} (h : p.AgreeOutside unseen q)
    (unread : ∀ address ∈ unseen, ¬ p.Reads address) (channel : Channel σ) (output : σ) :
    (outcome channel p output).failure? = (Machine.outcome channel q output).failure? ∧
      (Machine.outcome channel p output).output = (Machine.outcome channel q output).output ∧
      (Machine.outcome channel p output).processor.AgreeOutside
        (unseen \ { address | (Machine.outcome channel p output).failure? = none ∧
          ∃ op, p.decoded = .ok op ∧ op.Pushes ∧
            address = (p.registers.stackPointer - 1).toNat })
        (Machine.outcome channel q output).processor := by
  unfold Machine.outcome
  rw [← h.decoded_eq unread]
  cases hd : p.decoded with
  | error fault => exact ⟨rfl, rfl, h.halt.mono fun _ hu => ⟨hu, fun hs => nomatch hs.1⟩⟩
  | ok op =>
    dsimp only
    rw [← h.fault?_eq unread hd, ← h.printed?_eq unread hd]
    cases hf : p.fault? op with
    | some fault => exact ⟨rfl, rfl, h.halt.mono fun _ hu => ⟨hu, fun hs => nomatch hs.1⟩⟩
    | none =>
      dsimp only
      rcases handOver channel output (p.printed? op) with ⟨output, _ | reason⟩
      · refine ⟨rfl, rfl, (h.effect unread hd hf).mono fun address hu => ⟨hu.1, ?_⟩⟩
        rintro ⟨-, op', hd', hs⟩
        obtain rfl := Except.ok.inj hd'
        exact hu.2 hs
      · exact ⟨rfl, rfl, h.halt.mono fun _ hu => ⟨hu, fun hs => nomatch hs.1⟩⟩

/-- **One cycle.** -/
theorem next (h : m.AgreeOutside unseen m')
    (unread : ∀ address ∈ unseen, ¬ m.processor.Reads address) (channel : Channel σ) :
    failure? channel m = failure? channel m' ∧
      (next channel m).AgreeOutside (unseen \ stores channel m) (Machine.next channel m') := by
  have ho := outcome h.processor unread channel m.output
  rw [outcome_eq, h.output_eq, outcome_eq] at ho
  exact ⟨ho.1, ho.2.2, ho.2.1⟩

end AgreeOutside

/-- **Two runs side by side.** Every cycle of both comes to the same result and the same output, as
long as the first reads none of the unseen bytes but those that it has stored by then. -/
theorem agreeOutside_after (channel : Channel σ) {unseen : Set Nat} {m m' : Machine σ} (k : Nat)
    (h : m.AgreeOutside unseen m')
    (unread : ∀ j < k, ∀ address ∈ unseen, (after channel m j).processor.Reads address →
      address ∈ storedBefore channel m j) :
    (∀ j < k, failure? channel (after channel m j) = failure? channel (after channel m' j)) ∧
      ∀ j ≤ k, (after channel m j).AgreeOutside (unseen \ storedBefore channel m j)
        (after channel m' j) := by
  have unread' : ∀ j < k, ∀ address ∈ unseen \ storedBefore channel m j,
      ¬ (after channel m j).processor.Reads address :=
    fun j hj address hu hr => hu.2 (unread j hj address hu.1 hr)
  have agree : ∀ j ≤ k, (after channel m j).AgreeOutside (unseen \ storedBefore channel m j)
      (after channel m' j) := by
    intro j hj
    induction j with
    | zero =>
      rw [storedBefore_zero, Set.sdiff_empty]
      exact h
    | succ j ih =>
      rw [after_succ, after_succ, storedBefore_succ, ← Set.sdiff_sdiff]
      exact ((ih (Nat.le_of_succ_le hj)).next (unread' j hj) channel).2
  exact ⟨fun j hj => ((agree j (Nat.le_of_lt hj)).next (unread' j hj) channel).1, agree⟩

/-- A push and a pop of the same byte, over memories that differ there and at another address. -/
theorem agreeOutside_after_push_pop :
    let unseen : Set Nat := {0xF3, 0x80}
    let m := loaded [0x45, 0, 0x46, 1]
    let m' := { m with processor.memory := (m.processor.memory.set 0xF3 9).set 0x80 7 }
    m.AgreeOutside unseen m' ∧ (next .unbounded m).processor.Reads 0xF3 ∧
      0xF3 ∈ storedBefore .unbounded m 1 ∧
      (∀ j < 2, failure? .unbounded (after .unbounded m j) =
        failure? .unbounded (after .unbounded m' j)) ∧
      (after .unbounded m 2).AgreeOutside (unseen \ storedBefore .unbounded m 2)
        (after .unbounded m' 2) := by
  intro unseen m m'
  have agree : m.AgreeOutside unseen m' := by
    refine ⟨⟨rfl, rfl, rfl, rfl, fun address ha => ?_⟩, rfl⟩
    simp only [unseen, Set.mem_insert_iff, Set.mem_singleton_iff, not_or] at ha
    change _ = ((m.processor.memory.set 0xF3 9).set 0x80 7).get? address
    rw [Memory.get?_set_ne ha.2, Memory.get?_set_ne ha.1]
  have hd : m.processor.decoded = .ok .push :=
    Processor.decoded_eq_ok_iff.mpr (by decide +kernel)
  have silent : failure? .unbounded m = none ∧
      (next .unbounded m).processor = m.processor.effect .push :=
    next_of_silent hd rfl (by decide +kernel)
  obtain ⟨hok, hp⟩ := silent
  have hd' : (next .unbounded m).processor.decoded = .ok .pop :=
    Processor.decoded_eq_ok_iff.mpr (by rw [hp]; decide +kernel)
  have hc' : (next .unbounded m).processor.counter = 2 := by
    rw [hp]
    decide +kernel
  have hsp' : (next .unbounded m).processor.registers.stackPointer.toNat = 0xF3 := by
    rw [hp]
    decide +kernel
  have popped := Processor.Reads.popped hd' (.inl rfl) (by rw [hp]; decide +kernel)
    (by rw [hp]; decide +kernel)
  rw [hsp'] at popped
  have stored : 0xF3 ∈ storedBefore .unbounded m 1 :=
    ⟨0, by decide, hok, .push, hd, .inl rfl, by decide +kernel⟩
  have unread : ∀ j < 2, ∀ address ∈ unseen, (after .unbounded m j).processor.Reads address →
      address ∈ storedBefore .unbounded m j := by
    intro j hj address hu hr
    simp only [unseen, Set.mem_insert_iff, Set.mem_singleton_iff] at hu
    obtain rfl | rfl : j = 0 ∨ j = 1 := by omega
    · -- the push reads its own two bytes only
      have hc : m.processor.counter = 0 := rfl
      have hn : Opcode.push.operandCount = 1 := rfl
      rw [after_zero] at hr
      obtain ⟨-, hle⟩ | ⟨pops, -⟩ := hr.le_or_eq hd
      · omega
      · exact absurd pops (by decide)
    · -- the pop reads its own two bytes and what the push has stored
      have hn : Opcode.pop.operandCount = 1 := rfl
      rw [after_one] at hr
      obtain ⟨-, hle⟩ | ⟨-, heq⟩ := hr.le_or_eq hd'
      · omega
      · rw [heq, hsp']
        exact stored
  obtain ⟨results, after_agree⟩ := agreeOutside_after .unbounded 2 agree unread
  exact ⟨agree, popped, stored, results, after_agree 2 (Nat.le_refl 2)⟩

end Machine

end ByteMachine
