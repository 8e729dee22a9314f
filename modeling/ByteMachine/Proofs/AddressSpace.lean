import ByteMachine.Proofs.Parts

/-!
# Blocks at the end of the address space

A block that does not fit into the memory is refused, as a byte outside of the memory is. There is one
exception: the end of a block close to the last address is no address any more, and then the sum that
should tell whether the block fits is out of range itself. Whether a program stops at such a sum or
goes on with what is left of it, the block is not refused as it should be.

* `Overflow`, `Memory.storeBlock`: storing a block if the end of it may be out of range.
* `Memory.run_storeBlock_stops`, `Memory.run_storeBlock_wraps`: what that comes to.
* `Memory.Refuses`, **`Memory.refuses_iff`**: when a block that is too long is refused.
* `Memory.not_refuses_last_address`: one byte at the last address of all is not.
-/

namespace ByteMachine

/-! ## Sums out of range -/

/-- What becomes of a sum that is no address. -/
inductive Overflow
  /-- The program stops. -/
  | stops
  /-- The sum wraps around. -/
  | wraps
deriving DecidableEq

/-- The sum of two addresses, if the program goes on. -/
def Overflow.sum? (overflow : Overflow) (a b : Nat) : Option Nat :=
  match overflow with
  | stops => if a + b < addressLimit then some (a + b) else none
  | wraps => some ((a + b) % addressLimit)

theorem Overflow.sum?_of_lt (overflow : Overflow) {a b : Nat} (h : a + b < addressLimit) :
    overflow.sum? a b = some (a + b) := by
  cases overflow with
  | stops => exact if_pos h
  | wraps => exact congrArg some (Nat.mod_eq_of_lt h)

namespace Memory

variable {size : Nat}

/-! ## Storing a block -/

/-- Store a block in the part of the memory between its start and its end, which have to be in
order. -/
def storeBlock (overflow : Overflow) (start : Nat) (block : List UInt8) :
    EStateM BlockError (Memory size) Unit :=
  match overflow.sum? start block.length with
  | none => throw .endOverflow
  | some stop =>
    if size < stop then throw (.fault (.outOfBounds .memory (stop - 1)))
    else if stop < start then throw .endOverflow
    else modify (overlay start block)

/-- A block is refused: the fault names an address outside of the memory, which is left as it was. -/
def Refuses (memory : Memory size) (result : EStateM.Result BlockError (Memory size) Unit) : Prop :=
  ∃ address, size ≤ address ∧ result = .error (.fault (.outOfBounds .memory address)) memory

section Run

variable (overflow : Overflow) {start : Nat} {block : List UInt8} (memory : Memory size)

theorem run_storeBlock :
    (storeBlock overflow start block).run memory =
      match overflow.sum? start block.length with
      | none => .error .endOverflow memory
      | some stop =>
        if size < stop then .error (.fault (.outOfBounds .memory (stop - 1))) memory
        else if stop < start then .error .endOverflow memory
        else .ok () (overlay start block memory) := by
  unfold storeBlock
  cases overflow.sum? start block.length with
  | none => rfl
  | some stop =>
    dsimp only
    split_ifs <;> rfl

/-- **If the end of the block is an address**, it does not matter what becomes of other sums. -/
theorem run_storeBlock_of_lt (h : start + block.length < addressLimit) :
    (storeBlock overflow start block).run memory = (writeBlock start block).run memory := by
  have order : ¬ start + block.length < start := Nat.not_lt.mpr (Nat.le_add_right _ _)
  rw [run_storeBlock, overflow.sum?_of_lt h, run_writeBlock, if_neg (Nat.not_le.mpr h)]
  dsimp only
  rw [if_neg order]

theorem run_storeBlock_stops :
    (storeBlock .stops start block).run memory = (writeBlock start block).run memory := by
  by_cases h : start + block.length < addressLimit
  · exact run_storeBlock_of_lt .stops memory h
  · have none : Overflow.stops.sum? start block.length = none := if_neg h
    rw [run_storeBlock, none, run_writeBlock, if_pos (Nat.le_of_not_lt h)]

/-- An end that wraps around comes before the start. The block is refused only if the end lies
outside of the memory even so. -/
theorem run_storeBlock_wraps (position : start < addressLimit) (short : block.length < addressLimit)
    (h : addressLimit ≤ start + block.length) :
    (storeBlock .wraps start block).run memory =
      if size + addressLimit < start + block.length then
        .error (.fault (.outOfBounds .memory (start + block.length - addressLimit - 1))) memory
      else .error .endOverflow memory := by
  have wrapped : Overflow.wraps.sum? start block.length =
      some (start + block.length - addressLimit) := by
    refine congrArg some ?_
    rw [Nat.mod_eq_sub_mod h]
    exact Nat.mod_eq_of_lt (by omega)
  have order : start + block.length - addressLimit < start := by omega
  rw [run_storeBlock, wrapped]
  dsimp only
  rw [if_pos order]
  exact if_congr Nat.lt_sub_iff_add_lt rfl rfl

end Run

/-! ## Blocks that are too long -/

section TooLong

variable {memory : Memory size} {start : Nat} {block : List UInt8}

theorem not_refuses_endOverflow : ¬ memory.Refuses (.error .endOverflow memory) := by
  rintro ⟨address, -, h⟩
  cases h

theorem run_writeBlock_of_le (h : addressLimit ≤ start + block.length) :
    (writeBlock start block).run memory = .error .endOverflow memory := by
  rw [run_writeBlock, if_pos h]

theorem refuses_writeBlock_iff (exceeds : size < start + block.length) :
    memory.Refuses ((writeBlock start block).run memory) ↔ start + block.length < addressLimit := by
  constructor
  · intro refuses
    by_contra h
    rw [run_writeBlock_of_le (Nat.le_of_not_lt h)] at refuses
    exact not_refuses_endOverflow refuses
  · intro h
    refine ⟨start + block.length - 1, by omega, ?_⟩
    rw [run_writeBlock, if_neg (Nat.not_le.mpr h), if_pos exceeds]

theorem refuses_storeBlock_wraps_iff (position : start < addressLimit)
    (short : block.length < addressLimit) (h : addressLimit ≤ start + block.length) :
    memory.Refuses ((storeBlock .wraps start block).run memory) ↔
      size + addressLimit < start + block.length := by
  rw [run_storeBlock_wraps memory position short h]
  split_ifs with far
  · exact iff_of_true ⟨_, by omega, rfl⟩ far
  · exact iff_of_false not_refuses_endOverflow far

theorem exists_run_storeBlock_eq_error (overflow : Overflow) (position : start < addressLimit)
    (short : block.length < addressLimit) (exceeds : size < start + block.length) :
    ∃ error, (storeBlock overflow start block).run memory = .error error memory := by
  by_cases h : start + block.length < addressLimit
  · obtain ⟨address, -, refused⟩ := (refuses_writeBlock_iff exceeds).mpr h
    exact ⟨_, (run_storeBlock_of_lt overflow memory h).trans refused⟩
  · have outside := Nat.le_of_not_lt h
    cases overflow with
    | stops => exact ⟨_, (run_storeBlock_stops memory).trans (run_writeBlock_of_le outside)⟩
    | wraps =>
      rw [run_storeBlock_wraps memory position short outside]
      split_ifs
      · exact ⟨_, rfl⟩
      · exact ⟨_, rfl⟩

/-- **A block that is too long is refused exactly if its end is an address.** Then the fault names an
address outside of the memory, as it does for a byte that is read or stored there. Otherwise the
program stops, or it refuses only what is still too long once the end has wrapped around. In no case
is anything stored. -/
theorem refuses_iff (memory : Memory size) {start : Nat} {block : List UInt8}
    (position : start < addressLimit) (short : block.length < addressLimit)
    (exceeds : size < start + block.length) :
    (memory.Refuses ((writeBlock start block).run memory) ↔
      start + block.length < addressLimit) ∧
    (addressLimit ≤ start + block.length →
      (writeBlock start block).run memory = .error .endOverflow memory) ∧
    (storeBlock .stops start block).run memory = (writeBlock start block).run memory ∧
    (memory.Refuses ((storeBlock .wraps start block).run memory) ↔
      start + block.length < addressLimit ∨ size + addressLimit < start + block.length) ∧
    (∀ overflow, ∃ error, (storeBlock overflow start block).run memory = .error error memory) ∧
    ∀ address, size ≤ address →
      (read address).run memory = .error (.outOfBounds .memory address) memory ∧
      ∀ value, (write address value).run memory = .error (.outOfBounds .memory address) memory := by
  refine ⟨refuses_writeBlock_iff exceeds, run_writeBlock_of_le, run_storeBlock_stops memory, ?_,
    fun overflow => exists_run_storeBlock_eq_error overflow position short exceeds,
    fun address outside => ⟨?_, fun value => ?_⟩⟩
  · by_cases h : start + block.length < addressLimit
    · rw [run_storeBlock_of_lt .wraps memory h, refuses_writeBlock_iff exceeds, or_iff_left_of_imp]
      exact fun _ => h
    · rw [refuses_storeBlock_wraps_iff position short (Nat.le_of_not_lt h), or_iff_right h]
  · exact (memory.checked_read address).run_of_failed
      (Fault.unless_of_neg (Nat.not_lt.mpr outside))
  · exact (memory.checked_write address value).run_of_failed
      (Fault.unless_of_neg (Nat.not_lt.mpr outside))

/-- Blocks at the last addresses of all: an empty one, and a single byte. -/
theorem refuses_iff_last_address :
    let memory := zero ramSize
    let last := addressLimit - 1
    last < addressLimit ∧ ([] : List UInt8).length < addressLimit ∧
      ramSize < last + ([] : List UInt8).length ∧ ramSize < last + [1].length ∧
      memory.Refuses ((writeBlock last []).run memory) ∧
      (writeBlock last [1]).run memory = .error .endOverflow memory ∧
      (∃ error, (storeBlock .wraps last [1]).run memory = .error error memory) ∧
      (read last).run memory = .error (.outOfBounds .memory last) memory := by
  intro memory last
  have position : last < addressLimit := by decide +kernel
  have exceeds : ramSize < last + ([] : List UInt8).length := by decide +kernel
  have exceeds' : ramSize < last + [(1 : UInt8)].length := by decide +kernel
  have empty : ([] : List UInt8).length < addressLimit := by decide +kernel
  have single : [(1 : UInt8)].length < addressLimit := by decide +kernel
  obtain ⟨refuses, -, -, -, -, outside⟩ := refuses_iff memory position empty exceeds
  obtain ⟨-, overflows, -, -, fails, -⟩ := refuses_iff memory position single exceeds'
  exact ⟨position, empty, exceeds, exceeds', refuses.mpr (by decide +kernel),
    overflows (by decide +kernel), fails .wraps, (outside last (by decide +kernel)).1⟩

/-- **One byte at the last address of all is not refused**, whether sums out of range stop the program
or wrap around. -/
theorem not_refuses_last_address :
    ¬ ∀ (size : Nat) (memory : Memory size) (start : Nat) (block : List UInt8),
      start < addressLimit → size < start + block.length →
        memory.Refuses ((writeBlock start block).run memory) ∨
          memory.Refuses ((storeBlock .wraps start block).run memory) := by
  intro refuses
  have position : addressLimit - 1 < addressLimit := by decide +kernel
  have single : [(1 : UInt8)].length < addressLimit := by decide +kernel
  have outside : addressLimit ≤ addressLimit - 1 + [(1 : UInt8)].length := by decide +kernel
  obtain stopped | wrapped :=
    refuses ramSize (zero ramSize) (addressLimit - 1) [1] position (by decide +kernel)
  · rw [run_writeBlock_of_le outside] at stopped
    exact not_refuses_endOverflow stopped
  · rw [refuses_storeBlock_wraps_iff position single outside] at wrapped
    exact absurd wrapped (by decide +kernel)

end TooLong

end Memory

end ByteMachine
