import ByteMachine.Proofs.AddressUnit
import ByteMachine.Proofs.Dump

/-!
# Reading a trace line

A trace line shows where the processor stands, the three bytes there, and the registers. It can
always be written, also behind the memory, and what it shows is read off it again, so that it is the
same for two processors only if they agree on all of that.

* `Sight`, `Sight.line`: what a trace line shows, and the line.
* `cells`, `readTrace?`: a line is cut at its bars and blanks, and read.
* `cells_append`, **`Sight.readTrace?_line`**: words without bars and blanks come back from a cell, and
  what a trace line shows comes back from the line.
* `AddressUnit.trace`, **`AddressUnit.run_trace`**, `AddressUnit.run_trace_exact`: what it takes to
  write a trace line.
* **`Processor.read_trace`**: a trace line determines what it shows.
-/

namespace ByteMachine

/-! ## The line -/

/-- What a trace line shows: the program counter, the bytes there, and the registers. -/
structure Sight where
  counter : Nat
  bytes : List UInt8
  registers : List UInt8
deriving DecidableEq

/-- The line that shows it. -/
def Sight.line (sight : Sight) : String :=
  "TRACE: " ++ Hex.upper sight.counter ++ " |" ++ Hex.fields sight.bytes ++ " |" ++
    Hex.fields sight.registers

/-! ## Reading the line -/

/-- The cells of a text, each as the words in it: cells stand between bars, words between blanks. -/
def cells (text : List Char) : List (List (List Char)) :=
  (text.splitOn '|').map fun cell => (Log.words cell).filter (· ≠ [])

/-- **What is read off a trace line**: the program counter in the first cell behind the title, and the
bytes in the two other cells, all in hexadecimal. -/
def readTrace? (line : String) : Option Sight :=
  match cells line.toList with
  | [[title, counter], bytes, registers] =>
    if title = "TRACE:".toList then do
      let counter ← Hex.number? counter
      let bytes ← bytes.mapM Hex.byte?
      let registers ← registers.mapM Hex.byte?
      pure ⟨counter, bytes, registers⟩
    else none
  | _ => none

/-- Neither a bar nor a blank stands in the word. -/
def IsPlain (word : List Char) : Prop := '|' ∉ word ∧ ' ' ∉ word

theorem Hex.IsUpper.isPlain {text : List Char} {n : Nat} (h : IsUpper text n) : IsPlain text :=
  ⟨h.not_mem rfl, h.not_mem rfl⟩

theorem of_mem_byteFields {bytes : List UInt8} {field : List Char} (h : field ∈ byteFields bytes) :
    IsPlain field ∧ field ≠ [] := by
  obtain ⟨byte, -, rfl⟩ := List.mem_map.mp h
  have shown := Hex.isUpper_upper byte.toNat
  exact ⟨shown.isPlain, shown.ne_nil⟩

section Cells

variable {first : List Char} {rest : List (List Char)} (hf : IsPlain first)
  (hr : ∀ word ∈ rest, IsPlain word)
include hf hr

theorem bar_not_mem_cell : '|' ∉ first ++ rest.flatMap (' ' :: ·) := by
  simpa using ⟨hf.1, fun word h => (hr word h).1⟩

theorem cells_append (text : List Char) :
    cells (first ++ rest.flatMap (' ' :: ·) ++ '|' :: text) =
      (first :: rest).filter (· ≠ []) :: cells text := by
  have words := Log.words_flatMap hf.2 fun word h => (hr word h).2
  rw [cells, List.splitOn_append_cons_self_of_not_mem (bar_not_mem_cell hf hr), List.map_cons, words]
  rfl

theorem cells_singleton :
    cells (first ++ rest.flatMap (' ' :: ·)) = [(first :: rest).filter (· ≠ [])] := by
  have words := Log.words_flatMap hf.2 fun word h => (hr word h).2
  rw [cells, List.splitOn_eq_singleton (bar_not_mem_cell hf hr), List.map_singleton, words]

end Cells

namespace Sight

variable (sight : Sight)

theorem toList_line :
    sight.line.toList =
      "TRACE:".toList ++ [(Hex.upper sight.counter).toList, []].flatMap (' ' :: ·) ++
        '|' :: ([] ++ (byteFields sight.bytes ++ [[]]).flatMap (' ' :: ·) ++
          '|' :: ([] ++ (byteFields sight.registers).flatMap (' ' :: ·))) := by
  simp [line, Hex.toList_fields]

theorem cells_line :
    cells sight.line.toList =
      [["TRACE:".toList, (Hex.upper sight.counter).toList], byteFields sight.bytes,
        byteFields sight.registers] := by
  have counter := Hex.isUpper_upper sight.counter
  have empty : IsPlain [] := ⟨List.not_mem_nil, List.not_mem_nil⟩
  have title : IsPlain "TRACE:".toList := by
    unfold IsPlain
    decide
  have plain (bytes : List UInt8) : ∀ field ∈ byteFields bytes, IsPlain field :=
    fun _ h => (of_mem_byteFields h).1
  have filled (bytes : List UInt8) : ∀ field ∈ byteFields bytes, field ≠ [] :=
    fun _ h => (of_mem_byteFields h).2
  rw [toList_line, cells_append title (by simpa using ⟨counter.isPlain, empty⟩),
    cells_append empty (List.forall_mem_append.mpr ⟨plain sight.bytes, by simpa using empty⟩),
    cells_singleton empty (plain sight.registers)]
  simpa [counter.ne_nil] using ⟨filled sight.bytes, filled sight.registers⟩

/-- **A trace line is read back.** -/
theorem readTrace?_line : readTrace? sight.line = some sight := by
  have counter := (Hex.isUpper_upper sight.counter).reads
  have bytes (bytes : List UInt8) : (byteFields bytes).mapM Hex.byte? = some bytes :=
    mapM_byte?_fields (isField_byteFields bytes)
  rw [readTrace?, cells_line]
  simp [counter, bytes]

example : readTrace? "TRACE: 1FE | 82 00 08 | 00 00 00 00 00 00 00 F4" =
    some ⟨0x1FE, [0x82, 0x00, 0x08], [0, 0, 0, 0, 0, 0, 0, 0xF4]⟩ := by
  decide +kernel

theorem line_injective : Function.Injective line := by
  intro a b same
  have read := a.readTrace?_line
  rw [same, readTrace?_line] at read
  exact (Option.some.inj read).symm

end Sight

/-! ## Writing the line -/

/-- What a processor shows of itself. -/
def Processor.sight (p : Processor) : Sight :=
  ⟨p.counter, [p.peek 0, p.peek 1, p.peek 2], p.registers.values.toList⟩

theorem Processor.trace_eq_line (p : Processor) : p.trace = p.sight.line := rfl

namespace AddressUnit

section Trace

variable (unit : AddressUnit)

/-- The byte that stands so many places after the program counter, or zero if it cannot be read. -/
def peek (n : Nat) : Action Processor UInt8 := do
  let address ← unit.add (← get).counter n
  try
    Processor.onMemory (Memory.read address)
  catch _ =>
    pure 0

/-- The state on one line. -/
def trace : Action Processor String := do
  let first ← unit.peek 0
  let second ← unit.peek 1
  let third ← unit.peek 2
  let p ← get
  pure (Sight.line ⟨p.counter, [first, second, third], p.registers.values.toList⟩)

/-- The unit is right on sums that are addresses. -/
def AddsAddresses : Prop :=
  ∀ address n, address + n < addressLimit → unit.add address n = pure (address + n)

/-- The unit that stops with a fault at a sum that is no address. -/
def addressing : AddressUnit :=
  { exact with
    add := fun address n =>
      if address + n < addressLimit then pure (address + n)
      else throw (.outOfBounds .memory (address + n)) }

end Trace

variable {unit : AddressUnit} {p : Processor}

theorem run_peek {n : Nat} (sum : unit.add p.counter n = pure (p.counter + n)) :
    (unit.peek n).run p = .ok (p.peek n) p := by
  unfold peek Processor.peek
  simp only [EStateM.run_bind, EStateM.run_get, sum, EStateM.run_pure, Action.run_tryCatch,
    Processor.run_onMemory, Memory.run_read]
  cases p.memory.get? (p.counter + n) <;> rfl

/-- **A trace line can be written** as long as the three sums are right. -/
theorem run_trace (sums : ∀ n < 3, unit.add p.counter n = pure (p.counter + n)) :
    unit.trace.run p = .ok p.trace p := by
  unfold trace
  rw [EStateM.run_bind, run_peek (sums 0 (by decide))]
  dsimp only
  rw [EStateM.run_bind, run_peek (sums 1 (by decide))]
  dsimp only
  rw [EStateM.run_bind, run_peek (sums 2 (by decide))]
  rfl

/-- The machine's own trace line is the one with exact sums. -/
theorem run_trace_exact (p : Processor) : exact.trace.run p = .ok p.trace p :=
  run_trace fun _ _ => rfl

end AddressUnit

namespace Processor

/-- **A trace line determines what it shows.** Wherever the three bytes at the program counter have
addresses it can be written, also if the memory has no such bytes, which are shown as zeros. The
program counter, the three bytes and all registers are read back from it, and two processors have
the same line exactly if they agree on these. -/
theorem read_trace (p : Processor) (addressable : p.counter + 2 < addressLimit) :
    (∀ unit : AddressUnit, unit.AddsAddresses → unit.trace.run p = .ok p.trace p) ∧
    readTrace? p.trace = some
      { counter := p.counter
        bytes := [p.memory.byte p.counter, p.memory.byte (p.counter + 1),
          p.memory.byte (p.counter + 2)]
        registers := p.registers.values.toList } ∧
    (∀ address, ramSize ≤ address → p.memory.byte address = 0) ∧
    ∀ q : Processor, p.trace = q.trace ↔
      p.counter = q.counter ∧
        (∀ k < 3, p.memory.byte (p.counter + k) = q.memory.byte (q.counter + k)) ∧
        p.registers = q.registers := by
  refine ⟨fun unit right => AddressUnit.run_trace fun n hn => right _ _ (by omega), ?_,
    fun address outside => ?_, fun q => ⟨fun same => ?_, ?_⟩⟩
  · rw [trace_eq_line, Sight.readTrace?_line]
    rfl
  · rw [Memory.byte, Memory.get?_of_le outside, Option.getD_none]
  · rw [trace_eq_line, trace_eq_line] at same
    have shown := Sight.line_injective same
    simp only [sight, Sight.mk.injEq, List.cons.injEq, and_true] at shown
    obtain ⟨counter, ⟨first, second, third⟩, registers⟩ := shown
    refine ⟨counter, fun k hk => ?_, congrArg Registers.mk (Vector.toList_inj.mp registers)⟩
    obtain rfl | rfl | rfl : k = 0 ∨ k = 1 ∨ k = 2 := by omega
    · exact first
    · exact second
    · exact third
  · rintro ⟨counter, bytes, registers⟩
    have first : p.peek 0 = q.peek 0 := bytes 0 (by decide)
    have second : p.peek 1 = q.peek 1 := bytes 1 (by decide)
    have third : p.peek 2 = q.peek 2 := bytes 2 (by decide)
    have shown : p.sight = q.sight := by
      rw [sight, sight, counter, first, second, third, registers]
    rw [trace_eq_line, trace_eq_line, shown]

/-- A processor at the last byte of its memory, one that differs from it elsewhere, and one at the
last addresses of all. -/
theorem read_trace_last_address :
    let p := { boot ((Memory.zero ramSize).set 0xFF 0x82) with counter := 0xFF }
    let q := { p with
      flags := ⟨some .lt⟩, memory := p.memory.set 0 9, halted := true }
    let far := { p with counter := addressLimit - 3 }
    (p.counter + 2 < addressLimit ∧ p.trace = q.trace ∧ p.trace ≠ far.trace) ∧
      far.counter + 2 < addressLimit ∧ AddressUnit.addressing.AddsAddresses ∧
      AddressUnit.addressing.trace.run far = .ok far.trace far ∧
      readTrace? far.trace =
        some ⟨addressLimit - 3, [0, 0, 0], [0, 0, 0, 0, 0, 0, 0, 0xF4]⟩ := by
  intro p q far
  have right : AddressUnit.addressing.AddsAddresses := fun address n h => if_pos h
  have near : p.counter + 2 < addressLimit := by decide +kernel
  have last : far.counter + 2 < addressLimit := by decide +kernel
  obtain ⟨-, -, -, same⟩ := read_trace p near
  obtain ⟨writes, reads, -⟩ := read_trace far last
  refine ⟨⟨near, (same q).mpr ⟨rfl, by decide +kernel, rfl⟩, fun h => ?_⟩, last, right,
    writes _ right, reads.trans ?_⟩
  · exact absurd ((same far).mp h).1 (by decide +kernel)
  · decide +kernel

end Processor

end ByteMachine
