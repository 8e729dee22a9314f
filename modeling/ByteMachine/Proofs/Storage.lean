import Mathlib.Data.List.Induction
import ByteMachine.Proofs.Parts

/-!
# Storing bytes

A byte, a block and a row of integers are stored entirely or not at all, and a block that is stored
is nothing but its bytes stored one by one. So a memory holds at each address the byte that was
stored there last, whatever calls came before and whichever of them failed.

* `StoreCall`, `StoreCall.action`: the calls that store bytes.
* `Memory.writeEach`, **`Memory.run_writeEach`**: bytes one by one are a block.
* `StoreCall.Obeys`, **`StoreCall.obeys`**: when a call succeeds, what it then does, and how it fails.
* `Memory.after`, `Memory.LastStored`: the memory after some calls, and what they stored last.
* **`Memory.read_after`**: reading gives the byte that was stored last.
-/

namespace ByteMachine

/-! ## Calls that store bytes -/

/-- A call that stores bytes. -/
inductive StoreCall
  /-- One byte. -/
  | byte (address : Nat) (value : UInt8)
  /-- A block of bytes. -/
  | block (start : Nat) (bytes : List UInt8)
  /-- A block of integers, of each the low eight bits. -/
  | integers (start : Nat) (values : List Int)

namespace StoreCall

variable {size : Nat}

/-- What the call does. -/
def action : StoreCall → EStateM BlockError (Memory size) Unit
  | byte address value => EStateM.adaptExcept .fault (Memory.write address value)
  | block start bytes => Memory.writeBlock start bytes
  | integers start values => Memory.writeIntegers start values

/-- Where the first byte goes. -/
def start : StoreCall → Nat
  | byte address _ => address
  | block start _ => start
  | integers start _ => start

/-- The bytes to be stored. Of an integer it is the remainder modulo 256. -/
def bytes : StoreCall → List UInt8
  | byte _ value => [value]
  | block _ bytes => bytes
  | integers _ values => values.map fun value => UInt8.ofNat (value % 256).toNat

variable (size) (call : StoreCall)

/-- The end of what is to be stored is an address. -/
def Addressable : Prop := call.start + call.bytes.length < addressLimit

/-- A memory of this size has room for all of it. -/
def Fits : Prop := call.start + call.bytes.length ≤ size

/-- The address that a failing call names: that of the last byte, or the one before an empty block. -/
def named : Nat := call.start + call.bytes.length - 1

instance : Decidable (call.Fits size) := inferInstanceAs (Decidable (_ ≤ _))

end StoreCall

namespace Memory

variable {size : Nat} {memory : Memory size}

/-! ## A block byte by byte -/

/-- Store bytes one by one, from an address on. -/
def writeEach (start : Nat) : List UInt8 → Action (Memory size) Unit
  | [] => pure ()
  | value :: rest => do
    write start value
    writeEach (start + 1) rest

theorem overlay_cons {start : Nat} (h : start < size) (value : UInt8) (rest : List UInt8) :
    overlay start (value :: rest) memory = overlay (start + 1) rest (memory.set start value) := by
  ext1 address
  rw [get?_overlay, get?_overlay]
  obtain hlt | rfl | hgt := Nat.lt_trichotomy address start
  · rw [if_neg (by omega), if_neg (by omega), get?_set_ne (Nat.ne_of_lt hlt)]
  · rw [if_pos (Nat.le_refl _), if_neg (by omega), get?_set_self h, get?_of_lt h, Nat.sub_self]
    rfl
  · have hs : address - start = address - (start + 1) + 1 := by omega
    rw [if_pos (by omega), if_pos (by omega), get?_set_ne (Nat.ne_of_gt hgt), hs,
      List.getElem?_cons_succ]

theorem overlay_singleton {address : Nat} (h : address < size) (value : UInt8) :
    overlay address [value] memory = memory.set address value := by
  rw [overlay_cons h, overlay_nil]

/-- **Bytes stored one by one are a block**, if there is room for them. -/
theorem run_writeEach {start : Nat} {bytes : List UInt8} (h : start + bytes.length ≤ size) :
    (writeEach start bytes).run memory = .ok () (overlay start bytes memory) := by
  induction bytes generalizing start memory with
  | nil =>
    rw [overlay_nil]
    rfl
  | cons value rest ih =>
    rw [List.length_cons] at h
    have first : start < size := by omega
    rw [writeEach, EStateM.run_bind,
      (memory.checked_write start value).run_of_passed (Fault.unless_of_pos first),
      overlay_cons first]
    exact ih (by omega)

end Memory

/-! ## One call -/

namespace StoreCall

variable {size : Nat} {memory : Memory size} {call : StoreCall}

theorem run_of_fits (addressable : call.Addressable) (fits : call.Fits size) :
    call.action.run memory = .ok () (memory.overlay call.start call.bytes) := by
  cases call with
  | byte address value =>
    have stored := (memory.checked_write address value).run_of_passed (Fault.unless_of_pos fits)
    rw [action, EStateM.run_adaptExcept, stored]
    exact congrArg _ (Memory.overlay_singleton fits value).symm
  | block start bytes | integers start bytes =>
    exact (Memory.run_writeBlock _ _ memory).trans
      ((if_neg (Nat.not_le.mpr addressable)).trans (if_neg (Nat.not_lt.mpr fits)))

theorem run_of_not_fits (addressable : call.Addressable) (exceeds : ¬ call.Fits size) :
    call.action.run memory = .error (.fault (.outOfBounds .memory call.named)) memory := by
  cases call with
  | byte address value =>
    have refused := (memory.checked_write address value).run_of_failed (Fault.unless_of_neg exceeds)
    rw [action, EStateM.run_adaptExcept, refused]
    rfl
  | block start bytes | integers start bytes =>
    exact (Memory.run_writeBlock _ _ memory).trans
      ((if_neg (Nat.not_le.mpr addressable)).trans (if_pos (Nat.lt_of_not_le exceeds)))

/-- **What a call does**: it succeeds if there is room for all of it, and then comes to the same as
its bytes stored one by one. Otherwise it names an address outside of the memory, and changes
nothing. -/
structure Obeys (call : StoreCall) (memory : Memory size) : Prop where
  succeeds_iff : (∃ memory', call.action.run memory = .ok () memory') ↔ call.Fits size
  stores : ∀ memory', call.action.run memory = .ok () memory' →
    (Memory.writeEach call.start call.bytes).run memory = .ok () memory'
  fails : ∀ error memory', call.action.run memory = .error error memory' →
    error = .fault (.outOfBounds .memory call.named) ∧ size ≤ call.named ∧ memory' = memory

theorem obeys (addressable : call.Addressable) (memory : Memory size) : call.Obeys memory := by
  by_cases h : call.Fits size
  · have run : call.action.run memory = .ok () (memory.overlay call.start call.bytes) :=
      run_of_fits addressable h
    refine ⟨⟨fun _ => h, fun _ => ⟨_, run⟩⟩, fun memory' ok => ?_, fun error memory' failed => ?_⟩
    · rw [run] at ok
      cases ok
      exact Memory.run_writeEach h
    · rw [run] at failed
      cases failed
  · have run : call.action.run memory = .error (.fault (.outOfBounds .memory call.named)) memory :=
      run_of_not_fits addressable h
    refine ⟨⟨fun ⟨memory', ok⟩ => ?_, fun fits => absurd fits h⟩, fun memory' ok => ?_,
      fun error memory' failed => ?_⟩
    · rw [run] at ok
      cases ok
    · rw [run] at ok
      cases ok
    · rw [run] at failed
      cases failed
      unfold Fits at h
      exact ⟨rfl, by unfold named; omega, rfl⟩

/-- The memory after a call, whether it fails or not. -/
def next (call : StoreCall) (memory : Memory size) : Memory size :=
  match call.action.run memory with
  | .ok _ memory' => memory'
  | .error _ memory' => memory'

/-- The byte that a call stores at an address, if it succeeds and covers the address. -/
def stored? (call : StoreCall) (memory : Memory size) (address : Nat) : Option UInt8 :=
  match call.action.run memory with
  | .ok _ _ => if call.start ≤ address then call.bytes[address - call.start]? else none
  | .error _ _ => none

/-- **What a call leaves at an address**: the byte that it stores there, or what was there before. -/
theorem get?_next (addressable : call.Addressable) (address : Nat) :
    (call.next memory).get? address = (call.stored? memory address).or (memory.get? address) := by
  unfold next stored?
  by_cases h : call.Fits size
  · rw [run_of_fits addressable h]
    dsimp only
    rw [Memory.get?_overlay]
    by_cases first : call.start ≤ address
    · rw [if_pos first, if_pos first]
      cases hb : call.bytes[address - call.start]? with
      | none => cases memory.get? address <;> rfl
      | some value =>
        -- the call covers the address, which lies in the memory for that reason
        obtain ⟨last, -⟩ := List.getElem?_eq_some_iff.mp hb
        unfold Fits at h
        rw [Memory.get?_of_lt (by omega)]
        rfl
    · rw [if_neg first, if_neg first]
      rfl
  · rw [run_of_not_fits addressable h]
    rfl

end StoreCall

/-! ## Many calls -/

namespace Memory

variable {size : Nat} {memory : Memory size} {calls : List StoreCall} {call : StoreCall}
  {address : Nat} {value : UInt8}

/-- The memory after some calls, whether they fail or not. -/
def after (memory : Memory size) (calls : List StoreCall) : Memory size :=
  calls.foldl (fun memory call => call.next memory) memory

/-- The byte that call number `j` stores at an address, if there is such a call and it does. -/
def storedBy? (memory : Memory size) (calls : List StoreCall) (address j : Nat) : Option UInt8 :=
  calls[j]?.bind fun call => call.stored? (memory.after (calls.take j)) address

/-- **The byte that was stored last** at an address. -/
def LastStored (memory : Memory size) (calls : List StoreCall) (address : Nat) (value : UInt8) :
    Prop :=
  ∃ j, memory.storedBy? calls address j = some value ∧
    ∀ i, j < i → memory.storedBy? calls address i = none

/-- No call has stored a byte at the address. -/
def NeverStored (memory : Memory size) (calls : List StoreCall) (address : Nat) : Prop :=
  ∀ j, memory.storedBy? calls address j = none

theorem after_concat : memory.after (calls ++ [call]) = call.next (memory.after calls) := by
  simp [after]

theorem storedBy?_concat (j : Nat) :
    memory.storedBy? (calls ++ [call]) address j =
      if j = calls.length then call.stored? (memory.after calls) address
      else memory.storedBy? calls address j := by
  unfold storedBy?
  obtain hlt | rfl | hgt := Nat.lt_trichotomy j calls.length
  · rw [if_neg (Nat.ne_of_lt hlt), List.getElem?_append_left hlt,
      List.take_append_of_le_length (Nat.le_of_lt hlt)]
  · simp
  · rw [if_neg (Nat.ne_of_gt hgt), List.getElem?_eq_none (by simp; omega),
      List.getElem?_eq_none (Nat.le_of_lt hgt)]
    rfl

theorem lastStored_concat (h : memory.LastStored calls address value)
    (silent : call.stored? (memory.after calls) address = none) :
    memory.LastStored (calls ++ [call]) address value := by
  obtain ⟨j, hj, later⟩ := h
  have inside : j ≠ calls.length := by
    rintro rfl
    simp [storedBy?] at hj
  refine ⟨j, by rw [storedBy?_concat, if_neg inside, hj], fun i hi => ?_⟩
  rw [storedBy?_concat]
  split_ifs
  · exact silent
  · exact later i hi

theorem lastStored_concat_self (h : call.stored? (memory.after calls) address = some value) :
    memory.LastStored (calls ++ [call]) address value := by
  refine ⟨calls.length, by rw [storedBy?_concat, if_pos rfl, h], fun i hi => ?_⟩
  rw [storedBy?_concat, if_neg (Nat.ne_of_gt hi), storedBy?,
    List.getElem?_eq_none (Nat.le_of_lt hi)]
  rfl

/-- **The last one to store wins.** -/
theorem get?_after (addressable : ∀ call ∈ calls, call.Addressable) (inside : address < size) :
    ∃ value, (memory.after calls).get? address = some value ∧
      (memory.LastStored calls address value ∨
        memory.NeverStored calls address ∧ memory.get? address = some value) := by
  induction calls using List.reverseRecOn with
  | nil => exact ⟨_, get?_of_lt inside, .inr ⟨fun j => rfl, get?_of_lt inside⟩⟩
  | append_singleton calls call ih =>
    obtain ⟨value, before, origin⟩ := ih fun call h => addressable call (List.mem_append_left _ h)
    rw [after_concat, StoreCall.get?_next (addressable call (by simp))]
    cases hs : call.stored? (memory.after calls) address with
    | some value => exact ⟨value, rfl, .inl (lastStored_concat_self hs)⟩
    | none =>
      refine ⟨value, before, origin.imp (fun h => lastStored_concat h hs) ?_⟩
      rintro ⟨never, initial⟩
      refine ⟨fun j => ?_, initial⟩
      rw [storedBy?_concat]
      split_ifs
      · exact hs
      · exact never j

/-- **A memory keeps what was stored last.** After any calls, each of which does what it should,
reading fails outside of the memory. Inside it gives the byte of the last call that succeeded and
covered the address, or the one that was there before all calls. -/
theorem read_after (memory : Memory size) {calls : List StoreCall}
    (addressable : ∀ call ∈ calls, call.Addressable) :
    (∀ call ∈ calls, ∀ present : Memory size, call.Obeys present) ∧
    ∀ address,
      (size ≤ address → (read address).run (memory.after calls) =
        .error (.outOfBounds .memory address) (memory.after calls)) ∧
      (address < size → ∃ value,
        (read address).run (memory.after calls) = .ok value (memory.after calls) ∧
        (memory.LastStored calls address value ∨
          memory.NeverStored calls address ∧ memory.get? address = some value)) := by
  refine ⟨fun call h present => StoreCall.obeys (addressable call h) present,
    fun address => ⟨fun outside => ?_, fun inside => ?_⟩⟩
  · rw [run_read, get?_of_le outside]
  · obtain ⟨value, kept, origin⟩ := get?_after addressable inside
    refine ⟨value, ?_, origin⟩
    rw [run_read, kept]

/-- Calls that overlap, and between them a block that is too long and an empty one past the end. -/
theorem read_after_overlapping :
    let memory : Memory 4 := ⟨#v[9, 9, 9, 9]⟩
    let calls : List StoreCall :=
      [.block 1 [1, 2], .byte 2 7, .block 3 [5, 6], .block 6 [], .integers 0 [-1, 300]]
    (∀ call ∈ calls, call.Addressable) ∧
      (StoreCall.block 6 []).Obeys (memory.after (calls.take 3)) ∧
      (read 4).run (memory.after calls) = .error (.outOfBounds .memory 4) (memory.after calls) ∧
      memory.after calls = ⟨#v[255, 44, 7, 9]⟩ ∧
      ∃ value, (read 1).run (memory.after calls) = .ok value (memory.after calls) ∧
        (memory.LastStored calls 1 value ∨
          memory.NeverStored calls 1 ∧ memory.get? 1 = some value) := by
  intro memory calls
  have addressable : ∀ call ∈ calls, call.Addressable := by
    unfold StoreCall.Addressable
    decide
  obtain ⟨obeys, reads⟩ := read_after memory addressable
  exact ⟨addressable, obeys _ (by simp [calls]) _, (reads 4).1 (by decide), by decide,
    (reads 1).2 (by decide)⟩

end Memory

end ByteMachine
