import Mathlib
import ByteMachine.Proofs.Display

/-!
# What the log tells about a run

The log of a run tells its cycles one by one: what the processor looked like, and then what was done
or why it was not. The instructions that were carried out can be read off it again, operands and
all.

* `Log.words`, `Log.instruction?`: the words of a message, and the instruction that it speaks of.
* **`Processor.instruction?_note`**: the note on an instruction speaks of it.
* `Processor.told`: what is told about an instruction.
* `Machine.cycleRecords`, `Machine.transcript`, `Machine.executed`: the records of a cycle and of a
  run, and the instructions of cycles that succeed.
* `Machine.record?_account`, `Machine.filterMap_cycleRecords`: one cycle.
* **`Machine.captured_of_returns`**: the log of a run that returns.
-/

namespace ByteMachine

/-! ## Reading messages -/

namespace Log

/-- The words of a text, between its blanks. -/
def words (text : List Char) : List (List Char) := text.splitOn ' '

theorem words_append {word : List Char} (h : ' ' ∉ word) (rest : List Char) :
    words (word ++ ' ' :: rest) = word :: words rest :=
  List.splitOn_append_cons_self_of_not_mem h rest

theorem words_of_not_mem {word : List Char} (h : ' ' ∉ word) : words word = [word] :=
  List.splitOn_eq_singleton h

theorem words_flatMap {first : List Char} (h : ' ' ∉ first) {rest : List (List Char)}
    (hr : ∀ word ∈ rest, ' ' ∉ word) :
    words (first ++ rest.flatMap (' ' :: ·)) = first :: rest := by
  induction rest generalizing first with
  | nil => simpa using words_of_not_mem h
  | cons word rest ih =>
    have more := ih (hr word List.mem_cons_self) fun other ho => hr other (List.mem_cons_of_mem _ ho)
    rw [List.flatMap_cons, List.cons_append, words_append h, more]

/-- The byte that a word names in decimal. -/
def byte? (word : List Char) : Option UInt8 := (String.ofList word).toNat?.map UInt8.ofNat

/-- The byte that a word shows for an operand: the number of a register follows an `R`, and there
may be a colon behind it. -/
def operandByte? : Operand → List Char → Option UInt8
  | .register, 'R' :: number => byte? (number.takeWhile (· ≠ ':'))
  | .register, _ => none
  | .value, number => byte? number

/-- The bytes that some words show for the operands of an operation. -/
def operandBytes? : List Operand → List (List Char) → Option (List UInt8)
  | [], _ => some []
  | _ :: _, [] => none
  | operand :: operands, word :: words => do
    let byte ← operandByte? operand word
    let bytes ← operandBytes? operands words
    pure (byte :: bytes)

/-- **The instruction that a message speaks of**, as its bytes in the memory: the message begins with
the name of the operation, and goes on with the operands. -/
def instruction? (message : String) : Option (List UInt8) :=
  match words message.toList with
  | [] => none
  | name :: rest =>
    (Opcode.ofMnemonic? (String.ofList name)).bind fun op =>
      (operandBytes? op.operands rest).map (op.code :: ·)

/-- The instruction that a record speaks of. Only the details of a run do. -/
def Record.instruction? (record : Record) : Option (List UInt8) :=
  if record.level = .debug then Log.instruction? record.message else none

theorem byte?_repr (byte : UInt8) : byte? (Nat.repr byte.toNat).toList = some byte := by
  rw [byte?, String.ofList_toList, Nat.toNat?_repr, Option.map_some, UInt8.ofNat_toNat]

theorem not_mem_repr {n : Nat} {c : Char} (h : c.isDigit = false) : c ∉ (Nat.repr n).toList :=
  fun hc => Bool.false_ne_true (h.symm.trans (isDigit_of_mem_repr hc))

theorem operandByte?_registerName (index : UInt8) {colon : List Char}
    (h : colon = [] ∨ colon = [':']) :
    operandByte? .register ((Machine.registerName index).toList ++ colon) = some index := by
  have name : (Machine.registerName index).toList ++ colon =
      'R' :: ((Nat.repr index.toNat).toList ++ colon) := by
    rw [Machine.registerName, String.toList_append]
    rfl
  have number : ((Nat.repr index.toNat).toList ++ colon).takeWhile (· ≠ ':') =
      (Nat.repr index.toNat).toList := by
    rw [List.takeWhile_append_of_pos]
    · rcases h with rfl | rfl <;> simp
    · intro c hc
      have : c ≠ ':' := fun he => not_mem_repr (by decide) (he ▸ hc)
      simpa using this
  rw [name, operandByte?, number, byte?_repr]

theorem not_mem_registerName (index : UInt8) {colon : List Char} (h : colon = [] ∨ colon = [':']) :
    ' ' ∉ (Machine.registerName index).toList ++ colon := by
  have digits : ' ' ∉ (Nat.repr index.toNat).toList := not_mem_repr (by decide)
  rcases h with rfl | rfl <;> simpa [Machine.registerName] using digits

section Operands

variable {operand : Operand} {word : List Char} {byte : UInt8} (single : ' ' ∉ word)
  (shown : operandByte? operand word = some byte)
include single shown

theorem operandBytes?_append (operands : List Operand) (rest : List Char) :
    operandBytes? (operand :: operands) (words (word ++ ' ' :: rest)) =
      (operandBytes? operands (words rest)).map (byte :: ·) := by
  rw [words_append single, operandBytes?, shown]
  cases operandBytes? operands (words rest) <;> rfl

theorem operandBytes?_singleton : operandBytes? [operand] (words word) = some [byte] := by
  rw [words_of_not_mem single, operandBytes?, shown]
  rfl

end Operands

section Messages

variable {op : Opcode} {message : String}

theorem instruction?_append {rest : List Char}
    (h : message.toList = op.mnemonic.toList ++ ' ' :: rest) :
    instruction? message = (operandBytes? op.operands (words rest)).map (op.code :: ·) := by
  have name : ' ' ∉ op.mnemonic.toList := by cases op <;> decide
  have named : Opcode.ofMnemonic? op.mnemonic = some op := by cases op <;> decide
  rw [instruction?, h, words_append name]
  dsimp only
  rw [String.ofList_toList, named, Option.bind_some]

theorem instruction?_of_register (one : op.operands = [.register]) {index : UInt8}
    (h : message.toList = op.mnemonic.toList ++ ' ' :: (Machine.registerName index).toList) :
    instruction? message = some [op.code, index] := by
  have register := operandByte?_registerName index (.inl rfl)
  have single := not_mem_registerName index (.inl rfl)
  rw [List.append_nil] at register single
  rw [instruction?_append h, one, operandBytes?_singleton single register]
  rfl

theorem instruction?_of_colon (one : op.operands = [.register]) {index : UInt8}
    (h : op.mnemonic.toList ++ ' ' :: ((Machine.registerName index).toList ++ [':', ' ']) <+:
      message.toList) :
    instruction? message = some [op.code, index] := by
  obtain ⟨text, h⟩ := h
  have split : message.toList =
      op.mnemonic.toList ++ ' ' :: ((Machine.registerName index).toList ++ [':'] ++ ' ' :: text) := by
    rw [← h]
    simp
  rw [instruction?_append split, one, operandBytes?_append (not_mem_registerName index (.inr rfl))
    (operandByte?_registerName index (.inr rfl))]
  rfl

theorem instruction?_of_two {second : Operand} (two : op.operands = [.register, second])
    {index byte : UInt8} {word : List Char} (single : ' ' ∉ word)
    (shown : operandByte? second word = some byte)
    (h : message.toList =
      op.mnemonic.toList ++ ' ' :: ((Machine.registerName index).toList ++ ' ' :: word)) :
    instruction? message = some [op.code, index, byte] := by
  have first := operandByte?_registerName index (.inl rfl)
  have blank := not_mem_registerName index (.inl rfl)
  rw [List.append_nil] at first blank
  rw [instruction?_append h, two, operandBytes?_append blank first,
    operandBytes?_singleton single shown]
  rfl

end Messages

end Log

/-- **The note on an instruction speaks of it.** -/
theorem Processor.instruction?_note (p : Processor) (op : Opcode) :
    Log.instruction? (p.note op) = some (p.instruction op) := by
  have register := Log.operandByte?_registerName (p.peek 2) (.inl rfl)
  have blank := Log.not_mem_registerName (p.peek 2) (.inl rfl)
  rw [List.append_nil] at register blank
  cases op with
  | hlt =>
    have h : Log.instruction? "HLT" = some [0x01] := by decide +kernel
    exact h
  | ret =>
    have text : (p.note .ret).toList = Opcode.ret.mnemonic.toList ++
        ' ' :: ("0x" ++ Hex.upper (p.effect .ret).counter).toList := by
      simp [note, Opcode.mnemonic]
    exact Log.instruction?_append text
  | push | pop | prn | call =>
    refine Log.instruction?_of_colon rfl ?_
    simp [note, Opcode.mnemonic]
  | inc | dec =>
    refine Log.instruction?_of_register rfl ?_
    simp [note, Opcode.mnemonic]
  | ldi =>
    have value : Log.operandByte? .value (Nat.repr (p.peek 2).toNat).toList = some (p.peek 2) :=
      Log.byte?_repr _
    refine Log.instruction?_of_two rfl (Log.not_mem_repr (by decide)) value ?_
    simp [note, Opcode.mnemonic]
  | add | sub | mul | cmp =>
    refine Log.instruction?_of_two rfl blank register ?_
    simp [note, Opcode.mnemonic]

/-! ## What is told about an instruction -/

/-- An operand as messages show it. -/
def Operand.shown : Operand → UInt8 → String
  | .register, byte => Machine.registerName byte
  | .value, byte => Nat.repr byte.toNat

namespace Processor

/-- What a message adds to an instruction, from the processors before and after it: the value that is
printed, the new stack pointer, or the new program counter. -/
def detail (before after : Processor) : Opcode → String
  | .prn => ": " ++ Nat.repr (before.registers.value (before.peek 1)).toNat
  | .push | .pop => ": SP 0x" ++ Hex.upper after.registers.stackPointer.toNat
  | .call => ": 0x" ++ Hex.upper after.counter
  | .ret => " 0x" ++ Hex.upper after.counter
  | .hlt | .ldi | .inc | .dec | .add | .sub | .mul | .cmp => ""

/-- **What the log tells about an instruction**: its name, its operands as they stand in the memory,
and a detail. -/
def told (before after : Processor) (op : Opcode) : String :=
  op.mnemonic ++
    String.join ((op.operands.zipIdx 1).map fun (operand, k) =>
      " " ++ operand.shown (before.peek k)) ++
    detail before after op

theorem note_eq_told (p : Processor) (op : Opcode) : p.note op = told p (p.effect op) op := by
  refine String.toList_injective ?_
  cases op <;> simp [note, told, detail, Opcode.operands, Opcode.mnemonic, Operand.shown]

end Processor

/-! ## The records of cycles -/

namespace Machine

variable {σ : Type}

/-- The records that a threshold lets through, in the order in which they were logged. -/
def captured (limit : Log.Level) (m : Machine σ) : List Log.Record :=
  (m.journal.toList.filterMap Event.record?).filter (·.level.allowedBy (some limit))

theorem captured_trace (m : Machine σ) :
    captured .trace m = m.journal.toList.filterMap Event.record? := by
  refine List.filter_eq_self.mpr fun record _ => ?_
  cases record.level <;> rfl

theorem instruction?_faultRecord (p : Processor) (fault : Fault) :
    (faultRecord p fault).instruction? = none := by
  have unnamed : Opcode.ofMnemonic? "Processor" = none := by decide
  have split : (faultRecord p fault).message.toList = "Processor".toList ++
      ' ' :: ("fault at 0x" ++ Hex.upper p.counter ++ ": " ++ fault.message).toList := by
    simp [faultRecord, record]
  have debug : (faultRecord p fault).level = .debug := rfl
  rw [Log.Record.instruction?, if_pos debug, Log.instruction?, split, Log.words_append (by decide)]
  dsimp only
  rw [String.ofList_toList, unnamed, Option.bind_none]

section Cycles

variable (channel : Channel σ) (m : Machine σ)

/-- **The records of a cycle**: the state before it, and what was done or why it was not. If there is
no operation at the program counter, only the latter. -/
def cycleRecords : List Log.Record :=
  match m.processor.decoded with
  | .error fault => [faultRecord m.processor fault]
  | .ok op =>
    [record .trace m.processor.trace,
      match failure? channel m with
      | some fault => faultRecord m.processor fault
      | none => record .debug (Processor.told m.processor (next channel m).processor op)]

/-- **The transcript of a run** of `n` cycles: the records of its cycles, and that of the halt if no
fault has ended it. -/
def transcript (n : Nat) (fault? : Option Fault) (m' : Machine σ) : List Log.Record :=
  (List.range n).flatMap (fun i => cycleRecords channel (after channel m i)) ++
    if fault? = none then [haltRecord m'.processor] else []

/-- The instruction that the next cycle carries out, as its bytes in the memory. -/
def executed? : Option (List UInt8) :=
  match m.processor.decoded, failure? channel m with
  | .ok op, none => some (m.processor.instruction op)
  | _, _ => none

/-- The instructions that `k` cycles carry out, in order. -/
def executed (k : Nat) : List (List UInt8) :=
  (List.range k).filterMap fun i => executed? channel (after channel m i)

theorem isSome_executed? : (executed? channel m).isSome = decide (failure? channel m = none) := by
  unfold executed?
  cases hd : m.processor.decoded with
  | error fault => simp [failure?_of_decoded_error hd]
  | ok op => cases failure? channel m <;> rfl

theorem length_executed (k : Nat) :
    (executed channel m k).length =
      (List.range k).countP fun i => failure? channel (after channel m i) = none := by
  rw [executed, List.length_filterMap_eq_countP]
  exact List.countP_congr fun i _ => by rw [isSome_executed?]

theorem executed_succ (k : Nat) :
    executed channel m (k + 1) =
      executed channel m k ++ (executed? channel (after channel m k)).toList :=
  filterMap_range_succ _ k

variable {channel m} in
theorem told_next {op : Opcode} (hd : m.processor.decoded = .ok op)
    (success : failure? channel m = none) :
    Processor.told m.processor (next channel m).processor op = m.processor.note op := by
  obtain ⟨-, he⟩ := of_step_ok hd (step_eq_ok_of_failure?_eq_none success)
  rw [he, Processor.note_eq_told]

theorem record?_account :
    (account channel m).filterMap Event.record? = cycleRecords channel m := by
  unfold account cycleRecords
  cases hd : m.processor.decoded with
  | error fault => rfl
  | ok op =>
    cases hf : failure? channel m with
    | some fault => rfl
    | none =>
      dsimp only
      rw [told_next hd hf]
      cases op <;> rfl

/-- **The records of a cycle speak of the instruction that it carries out**, and of no other. -/
theorem filterMap_cycleRecords :
    (cycleRecords channel m).filterMap Log.Record.instruction? =
      (executed? channel m).toList := by
  have state : (record .trace m.processor.trace).instruction? = none := rfl
  have refused := instruction?_faultRecord m.processor
  have note (op : Opcode) : (record .debug (m.processor.note op)).instruction? =
      some (m.processor.instruction op) := m.processor.instruction?_note op
  unfold cycleRecords executed?
  cases hd : m.processor.decoded with
  | error fault => simp [refused]
  | ok op =>
    cases hf : failure? channel m with
    | some fault => simp [state, refused]
    | none => simp [state, told_next hd hf, note]

end Cycles

/-! ## The log of a run -/

variable {channel : Channel σ} {m m' : Machine σ} {fault? : Option Fault}

theorem executes_executed? (running : m.processor.halted = false)
    (success : failure? channel m = none) :
    Executes channel m (executed? channel m).toList (next channel m) := by
  obtain ⟨-, op, hd, -⟩ | ⟨fault, hf, -⟩ := next_cases channel m
  · rw [executed?, hd, success]
    exact .cycle running hd (step_eq_ok_of_failure?_eq_none success) (.refl _)
  · rw [success] at hf
    cases hf

theorem executes_executed {k : Nat} (success : ∀ i < k, failure? channel (after channel m i) = none)
    (running : ∀ i < k, (after channel m i).processor.halted = false) :
    Executes channel m (executed channel m k) (after channel m k) := by
  induction k with
  | zero => exact .refl m
  | succ k ih =>
    have before := ih (fun i hi => success i (Nat.lt_succ_of_lt hi))
      (fun i hi => running i (Nat.lt_succ_of_lt hi))
    have hk := Nat.lt_succ_self k
    rw [executed_succ, after_succ]
    exact before.trans (executes_executed? (running k hk) (success k hk))

theorem ReturnsAfter.executes {n : Nat} (h : ReturnsAfter channel m n fault? m') :
    Executes channel m (executed channel m n) (after channel m (executed channel m n).length) := by
  have all {k : Nat} (success : ∀ i < k, failure? channel (after channel m i) = none) :
      (executed channel m k).length = k := by
    rw [length_executed, List.countP_eq_length.mpr, List.length_range]
    intro i hi
    simpa using success i (List.mem_range.mp hi)
  obtain ⟨rfl, -, -, -⟩ | ⟨j, rfl, gets, last⟩ := h.cases
  · exact .refl m
  · have running : ∀ i < j + 1, (after channel m i).processor.halted = false :=
      fun i hi => gets.2 i (Nat.le_of_lt_succ hi)
    cases last with
    | halts decoded =>
      have success : ∀ i < j + 1, failure? channel (after channel m i) = none := by
        intro i hi
        rcases Nat.lt_succ_iff_lt_or_eq.mp hi with hlt | rfl
        · exact gets.1 i hlt
        · exact (next_of_hlt channel decoded).1
      rw [all success]
      exact executes_executed success running
    | fails failure =>
      -- the last cycle carries out nothing
      have nothing : executed? channel (after channel m j) = none := by
        rw [← Option.not_isSome_iff_eq_none, isSome_executed?, failure]
        simp
      rw [executed_succ, nothing, Option.toList_none, List.append_nil, all gets.1]
      exact executes_executed gets.1 fun i hi => running i (Nat.lt_succ_of_lt hi)

/-- **The log of a run tells its cycles**, and nothing else but that the run has come to its end. The
instructions that were carried out, one for each cycle that succeeds, can be read off it. -/
theorem captured_of_returns (h : Returns channel m fault? m') :
    ∃ n, ReturnsAfter channel m n fault? m' ∧
      captured .trace m' = captured .trace m ++ transcript channel m n fault? m' ∧
      (transcript channel m n fault? m').filterMap Log.Record.instruction? =
        executed channel m n ∧
      Executes channel m (executed channel m n)
        (after channel m (executed channel m n).length) ∧
      (executed channel m n).length =
        (List.range n).countP fun i => failure? channel (after channel m i) = none := by
  obtain ⟨n, returns⟩ := h.exists_returnsAfter
  refine ⟨n, returns, ?_, ?_, returns.executes, length_executed channel m n⟩
  · have halt : (if fault? = none then [Event.logged (haltRecord m'.processor)] else []).filterMap
        Event.record? = if fault? = none then [haltRecord m'.processor] else [] := by
      split_ifs <;> rfl
    rw [captured_trace, captured_trace, returns.journal, List.filterMap_append,
      List.filterMap_append, halt, accounts, List.filterMap_flatMap, List.append_assoc]
    simp only [record?_account]
    rfl
  · have halt : (if fault? = none then [haltRecord m'.processor] else []).filterMap
        Log.Record.instruction? = [] := by
      split_ifs <;> rfl
    rw [transcript, List.filterMap_append, halt, List.append_nil, List.filterMap_flatMap, executed,
      List.filterMap_eq_flatMap_toList]
    simp only [filterMap_cycleRecords]

/-- A push and a pop of the stack pointer itself, with no operation behind them. -/
theorem captured_of_returns_push_pop :
    let m := loaded [0x45, 7, 0x46, 7]
    let fault := Fault.invalidOpcode 0 4
    ∃ m', Returns .unbounded m (some fault) m' ∧
      captured .trace m' =
        [record .trace "TRACE: 00 | 45 07 46 | 00 00 00 00 00 00 00 F4",
          record .debug "PUSH R7: SP 0xF3",
          record .trace "TRACE: 02 | 46 07 00 | 00 00 00 00 00 00 00 F3",
          record .debug "POP R7: SP 0xF5",
          record .debug "Processor fault at 0x04: invalid opcode 0x00 at 0x04"] ∧
      (captured .trace m').filterMap Log.Record.instruction? = [[0x45, 7], [0x46, 7]] ∧
      Executes .unbounded m [[0x45, 7], [0x46, 7]] (after .unbounded m 2) := by
  intro m fault
  have success : ∀ i < 2, failure? .unbounded (after .unbounded m i) = none := by decide +kernel
  have running : ∀ i < 3, (after .unbounded m i).processor.halted = false := by decide +kernel
  have gets : GetsTo .unbounded m 2 := ⟨success, fun i hi => running i (Nat.lt_succ_of_le hi)⟩
  have failure : failure? .unbounded (after .unbounded m 2) = some fault := by decide +kernel
  have last := LastCycle.fails failure
  have run : executed .unbounded m 3 = [[0x45, 7], [0x46, 7]] := by decide +kernel
  have silent : captured .trace m = [] := rfl
  obtain ⟨n, returns, all, readable, executes, -⟩ :=
    captured_of_returns (gets.returnsAfter last).returns
  obtain ⟨rfl, -⟩ := returns.unique (gets.returnsAfter last)
  rw [run] at readable executes
  rw [silent, List.nil_append] at all
  exact ⟨_, (gets.returnsAfter last).returns, by decide +kernel, by rw [all, readable], executes⟩

end Machine

end ByteMachine
