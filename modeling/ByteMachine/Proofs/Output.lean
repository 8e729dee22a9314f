import Mathlib.Data.Nat.Find
import Mathlib.Data.String.Basic
import ByteMachine.Proofs.Run

/-!
# Outputs with a capacity

An output that runs full cuts a run short, and does nothing else to it: up to there the run is the
one with an output that takes everything, and the instruction that is cut short has not begun to
change the processor.

* `Machine.cycles`: a number of cycles, to the first that fails.
* `OneByte`, `Machine.oneByte_output_after`: all that is printed are characters of one byte.
* `Machine.output_next_cases`: a cycle prints nothing, or it is a print instruction.
* `Machine.step_bounded_of_le`, **`Machine.step_bounded_of_lt`**: a cycle whose text still fits, and
  one whose text does not.
* **`Machine.run_cycles_bounded`**: the run up to the cut.
-/

namespace ByteMachine

/-! ## Texts of one-byte characters -/

theorem isDigit_of_mem_repr {n : Nat} {c : Char} (h : c ∈ (Nat.repr n).toList) :
    c.isDigit = true := by
  rw [Nat.repr, String.toList_ofList] at h
  exact Nat.isDigit_of_mem_toDigits (by decide) (by decide) h

/-- Each character of a text takes one byte. -/
def OneByte (text : String) : Prop := ∀ c ∈ text.toList, c.utf8Size = 1

namespace OneByte

theorem empty : OneByte "" := fun _ h => absurd h List.not_mem_nil

theorem utf8Len_eq {cs : List Char} (h : ∀ c ∈ cs, c.utf8Size = 1) :
    String.utf8Len cs = cs.length := by
  induction cs with
  | nil => rfl
  | cons c cs ih =>
    rw [String.utf8Len_cons, ih fun d hd => h d (List.mem_cons_of_mem c hd),
      h c List.mem_cons_self, List.length_cons]

theorem utf8ByteSize_eq {text : String} (h : OneByte text) : text.utf8ByteSize = text.length := by
  rw [← String.ofList_toList (s := text), String.utf8ByteSize_ofList, String.length_ofList,
    utf8Len_eq h]

theorem append {text more : String} (h : OneByte text) (h' : OneByte more) :
    OneByte (text ++ more) := by
  intro c hc
  rw [String.toList_append, List.mem_append] at hc
  exact hc.elim (h c) (h' c)

theorem utf8ByteSize_take {text : String} (h : OneByte text) {n : Nat} (hn : n ≤ text.length) :
    (String.ofList (text.toList.take n)).utf8ByteSize = n := by
  rw [String.utf8ByteSize_ofList, utf8Len_eq fun c hc => h c (List.mem_of_mem_take hc),
    List.length_take, String.length_toList, Nat.min_eq_left hn]

theorem repr (n : Nat) : OneByte (Nat.repr n) := by
  intro c hc
  have digit := isDigit_of_mem_repr hc
  rw [Char.isDigit_iff_toNat] at digit
  rw [Char.utf8Size_eq_one_iff, UInt32.le_iff_toNat_le]
  exact Nat.le_trans digit.2 (by decide)

end OneByte

theorem Processor.of_printed?_eq_some {p : Processor} {op : Opcode} {text : String}
    (h : p.printed? op = some text) : op = .prn ∧ OneByte text := by
  cases op with
  | prn =>
    cases h
    have line : OneByte "\n" := by
      intro c hc
      rw [List.mem_singleton.mp hc]
      rfl
    exact ⟨rfl, (OneByte.repr _).append line⟩
  | _ => cases h

/-! ## Handing over a text -/

namespace Channel

variable {capacity : Nat} {taken text : String}

theorem write_bounded_of_le (h : (taken ++ text).length ≤ capacity) :
    (bounded capacity).write taken text = unbounded.write taken text := by
  rw [String.length_append] at h
  exact if_pos (by omega)

theorem write_bounded_of_lt (room : taken.length ≤ capacity)
    (h : capacity < (taken ++ text).length) :
    (bounded capacity).write taken text =
      (String.ofList ((taken ++ text).toList.take capacity), some "output full") := by
  rw [String.length_append] at h
  have hl : ¬ text.length ≤ capacity - taken.length := by omega
  have ht : taken ++ String.ofList (text.toList.take (capacity - taken.length)) =
      String.ofList ((taken ++ text).toList.take capacity) := by
    rw [String.toList_append, List.take_append, List.take_of_length_le room, String.ofList_append,
      String.ofList_toList, String.length_toList]
  rw [← ht]
  exact if_neg hl

end Channel

namespace Machine

variable {σ : Type}

/-! ## The output of a cycle -/

section Cycle

variable {channel : Channel σ} {m : Machine σ} {op : Opcode}

theorem step_congr_handOver {channel' : Channel σ}
    (h : ∀ op, m.processor.decoded = .ok op → m.processor.fault? op = none →
      handOver channel m.output (m.processor.printed? op) =
        handOver channel' m.output (m.processor.printed? op)) :
    (step channel).run m = (step channel').run m := by
  cases hd : m.processor.decoded with
  | error fault => rw [step_of_decoded_error hd, step_of_decoded_error hd]
  | ok op =>
    cases hf : m.processor.fault? op with
    | some fault => rw [step_of_check_failed hd hf, step_of_check_failed hd hf]
    | none =>
      have hp : performed channel m.sighted op = performed channel' m.sighted op := by
        have hh : handOver channel m.sighted.output (m.sighted.processor.printed? op) =
            handOver channel' m.sighted.output (m.sighted.processor.printed? op) := h op hd hf
        rw [performed, hh, performed]
      rw [step_of_checks_passed channel hd hf, hp, step_of_checks_passed channel' hd hf]

theorem output_next_of_failed
    (h : ∀ op, m.processor.decoded = .ok op → m.processor.fault? op ≠ none) :
    (next channel m).output = m.output := by
  have ho : (outcome channel m.processor m.output).output = (next channel m).output := by
    rw [outcome_eq]
  rw [← ho, outcome]
  cases hd : m.processor.decoded with
  | error fault => rfl
  | ok op =>
    obtain ⟨fault, hf⟩ := Option.ne_none_iff_exists'.mp (h op hd)
    dsimp only
    rw [hf]

end Cycle

variable {m : Machine String} {n : Nat}

/-- **A cycle prints nothing, or it carries out a print instruction.** -/
theorem output_next_cases (m : Machine String) :
    (next .unbounded m).output = m.output ∨
      ∃ text, m.processor.decoded = .ok .prn ∧ m.processor.fault? .prn = none ∧
        m.processor.printed? .prn = some text ∧ OneByte text ∧
        (next .unbounded m).output = m.output ++ text := by
  by_cases h : ∃ op, m.processor.decoded = .ok op ∧ m.processor.fault? op = none
  · obtain ⟨op, hd, hf⟩ := h
    obtain ⟨-, -, ho⟩ := next_of_accepts Channel.accepts_unbounded hd hf
    cases hp : m.processor.printed? op with
    | none =>
      rw [hp] at ho
      exact .inl ho
    | some text =>
      obtain ⟨rfl, one⟩ := Processor.of_printed?_eq_some hp
      rw [hp] at ho
      exact .inr ⟨text, hd, hf, hp, one, ho⟩
  · exact .inl (output_next_of_failed fun op hd hf => h ⟨op, hd, hf⟩)

theorem exists_output_next (m : Machine String) :
    ∃ text, OneByte text ∧ (next .unbounded m).output = m.output ++ text := by
  obtain ho | ⟨text, -, -, -, one, ho⟩ := output_next_cases m
  · exact ⟨"", .empty, by rw [ho, String.append_empty]⟩
  · exact ⟨text, one, ho⟩

theorem exists_output_after (m : Machine String) {i j : Nat} (h : i ≤ j) :
    ∃ text, OneByte text ∧
      (after .unbounded m j).output = (after .unbounded m i).output ++ text := by
  induction j, h using Nat.le_induction with
  | base => exact ⟨"", .empty, by rw [String.append_empty]⟩
  | succ j _ ih =>
    obtain ⟨text, one, ht⟩ := ih
    obtain ⟨more, one', hm⟩ := exists_output_next (after .unbounded m j)
    exact ⟨text ++ more, one.append one', by rw [after_succ, hm, ht, String.append_assoc]⟩

theorem oneByte_output_after (empty : m.output = "") (k : Nat) :
    OneByte (after .unbounded m k).output := by
  obtain ⟨text, one, ht⟩ := exists_output_after m (Nat.zero_le k)
  rw [ht, after_zero, empty, String.empty_append]
  exact one

theorem length_output_after_mono (m : Machine String) {i j : Nat} (h : i ≤ j) :
    (after .unbounded m i).output.length ≤ (after .unbounded m j).output.length := by
  obtain ⟨text, -, ht⟩ := exists_output_after m h
  rw [ht, String.length_append]
  exact Nat.le_add_right _ _

theorem step_bounded_of_le (h : (next .unbounded m).output.length ≤ n) :
    (step (.bounded n)).run m = (step .unbounded).run m := by
  refine step_congr_handOver fun op hd hf => ?_
  obtain ⟨-, -, ho⟩ := next_of_accepts Channel.accepts_unbounded hd hf
  cases hp : m.processor.printed? op with
  | none => rfl
  | some text =>
    rw [hp] at ho
    rw [ho] at h
    exact Channel.write_bounded_of_le h

/-- **A cycle whose text does not fit** is a print instruction. It fails, with the output full, and
has changed nothing else. -/
theorem step_bounded_of_lt (room : m.output.length ≤ n)
    (h : n < (next .unbounded m).output.length) :
    m.processor.decoded = .ok .prn ∧ ∃ cut,
      (step (.bounded n)).run m = .error (.output "output full") cut ∧
      cut.output = String.ofList ((next .unbounded m).output.toList.take n) ∧
      cut.processor = { m.processor with halted := true } := by
  obtain ho | ⟨text, hd, hf, hp, -, ho⟩ := output_next_cases m
  · rw [ho] at h
    exact absurd room (Nat.not_le.mpr h)
  · rw [ho] at h ⊢
    have refused : handOver (.bounded n) m.sighted.output (m.sighted.processor.printed? .prn) =
        (String.ofList ((m.output ++ text).toList.take n), some "output full") := by
      rw [sighted, hp]
      exact Channel.write_bounded_of_lt room h
    have hs := step_of_checks_passed (.bounded n) hd hf
    rw [performed_of_refused refused] at hs
    exact ⟨hd, _, hs, rfl, processor_of_step_error hs⟩

/-! ## The run up to the cut -/

/-- A number of cycles, to the first that fails. They go on after the processor has halted. -/
def cycles (channel : Channel σ) : Nat → Action (Machine σ) Unit
  | 0 => pure ()
  | k + 1 => do
    cycles channel k
    step channel

section Cycles

variable {channel : Channel σ} {m m' : Machine σ} {k : Nat}

theorem run_cycles_succ_of_ok (h : (cycles channel k).run m = .ok () m') :
    (cycles channel (k + 1)).run m = (step channel).run m' := by
  rw [cycles, EStateM.run_bind, h]

theorem run_cycles_of_error {fault : Fault} (h : (cycles channel k).run m = .error fault m')
    {more : Nat} (hk : k ≤ more) : (cycles channel more).run m = .error fault m' := by
  induction more, hk using Nat.le_induction with
  | base => exact h
  | succ more _ ih => rw [cycles, EStateM.run_bind, ih]

theorem run_cycles_of_success
    (success : ∀ i < k, failure? channel (after channel m i) = none) :
    (cycles channel k).run m = .ok () (after channel m k) := by
  induction k with
  | zero => rfl
  | succ k ih =>
    rw [run_cycles_succ_of_ok (ih fun i hi => success i (Nat.lt_succ_of_lt hi)),
      step_eq_ok_of_failure?_eq_none (success k (Nat.lt_succ_self k)), after_succ]

end Cycles

/-- **A run cut short** in its cycle number `j`, counted from zero, by an output that takes `n`
bytes: what it comes to, next to the run with an output that takes everything. -/
structure CutShort (m : Machine String) (n j : Nat) (cut : Machine String) : Prop where
  fits : ∀ i ≤ j, (after .unbounded m i).output.utf8ByteSize ≤ n
  overflows : n < (after .unbounded m (j + 1)).output.utf8ByteSize
  prints : (after .unbounded m j).processor.decoded = .ok .prn
  same : ∀ i ≤ j, (cycles (.bounded n) i).run m = (cycles .unbounded i).run m
  fails : ∀ i, j < i → (cycles (.bounded n) i).run m = .error (.output "output full") cut
  processor : cut.processor = { (after .unbounded m j).processor with halted := true }
  filled : cut.output.utf8ByteSize = n
  output : ∃ rest, (after .unbounded m (j + 1)).output = cut.output ++ rest

section Cut

variable {k : Nat} (success : ∀ i < k, failure? .unbounded (after .unbounded m i) = none)
include success

theorem run_cycles_bounded_of_le (fits : (after .unbounded m k).output.length ≤ n) :
    (cycles (.bounded n) k).run m = .ok () (after .unbounded m k) := by
  induction k with
  | zero => rfl
  | succ k ih =>
    have before := ih (fun i hi => success i (Nat.lt_succ_of_lt hi))
      (Nat.le_trans (length_output_after_mono m (Nat.le_succ k)) fits)
    rw [after_succ] at fits ⊢
    rw [run_cycles_succ_of_ok before, step_bounded_of_le fits,
      step_eq_ok_of_failure?_eq_none (success k (Nat.lt_succ_self k))]

theorem exists_cutShort (empty : m.output = "") {j : Nat} (hj : j < k)
    (fits : (after .unbounded m j).output.length ≤ n)
    (overflows : n < (after .unbounded m (j + 1)).output.length) : ∃ cut, CutShort m n j cut := by
  have bytes (i : Nat) := (oneByte_output_after empty i).utf8ByteSize_eq
  have fits' (i : Nat) (hi : i ≤ j) : (after .unbounded m i).output.length ≤ n :=
    Nat.le_trans (length_output_after_mono m hi) fits
  have success' (i : Nat) (hi : i ≤ j) (l : Nat) (hl : l < i) :
      failure? .unbounded (after .unbounded m l) = none := success l (by omega)
  have before := run_cycles_bounded_of_le (success' j (Nat.le_refl j)) fits
  obtain ⟨prints, cut, fails, output, processor⟩ :=
    step_bounded_of_lt fits (after_succ .unbounded m j ▸ overflows)
  rw [← after_succ] at output
  have first : (cycles (.bounded n) (j + 1)).run m = .error (.output "output full") cut := by
    rw [run_cycles_succ_of_ok before, fails]
  refine ⟨cut, ?_, ?_, prints, ?_, ?_, processor, ?_, ?_⟩
  · intro i hi
    rw [bytes]
    exact fits' i hi
  · rw [bytes]
    exact overflows
  · intro i hi
    rw [run_cycles_bounded_of_le (success' i hi) (fits' i hi), run_cycles_of_success (success' i hi)]
  · intro i hi
    exact run_cycles_of_error first hi
  · rw [output]
    exact (oneByte_output_after empty (j + 1)).utf8ByteSize_take (Nat.le_of_lt overflows)
  · refine ⟨String.ofList ((after .unbounded m (j + 1)).output.toList.drop n), ?_⟩
    rw [output, ← String.ofList_append, List.take_append_drop, String.ofList_toList]

/-- **An output that runs full cuts a run short, and does nothing else to it.** -/
theorem run_cycles_bounded (empty : m.output = "") (n : Nat) :
    (∀ i ≤ k, (cycles .unbounded i).run m = .ok () (after .unbounded m i)) ∧
    ((after .unbounded m k).output.utf8ByteSize ≤ n →
      ∀ i ≤ k, (cycles (.bounded n) i).run m = (cycles .unbounded i).run m) ∧
    (n < (after .unbounded m k).output.utf8ByteSize →
      ∃ j < k, ∃ cut, CutShort m n j cut ∧
        ∃ rest, (after .unbounded m k).output = cut.output ++ rest) := by
  rw [(oneByte_output_after empty k).utf8ByteSize_eq]
  have success' (i : Nat) (hi : i ≤ k) (l : Nat) (hl : l < i) :
      failure? .unbounded (after .unbounded m l) = none := success l (Nat.lt_of_lt_of_le hl hi)
  have unbounded (i : Nat) (hi : i ≤ k) := run_cycles_of_success (success' i hi)
  refine ⟨unbounded, fun fits i hi => ?_, fun overflows => ?_⟩
  · rw [unbounded i hi]
    exact run_cycles_bounded_of_le (success' i hi)
      (Nat.le_trans (length_output_after_mono m hi) fits)
  · have ever : ∃ i, n < (after .unbounded m i).output.length := ⟨k, overflows⟩
    -- nothing was printed before the first cycle, so that some cycle goes beyond the capacity
    obtain ⟨j, hj⟩ : ∃ j, Nat.find ever = j + 1 := by
      refine Nat.exists_eq_succ_of_ne_zero fun h => ?_
      have := Nat.find_spec ever
      rw [h, after_zero, empty] at this
      exact Nat.not_lt_zero n this
    have last : j + 1 ≤ k := hj ▸ Nat.find_min' ever overflows
    have fits : (after .unbounded m j).output.length ≤ n :=
      Nat.le_of_not_lt (Nat.find_min ever (hj ▸ Nat.lt_succ_self j))
    obtain ⟨cut, h⟩ := exists_cutShort success empty last fits (hj ▸ Nat.find_spec ever)
    obtain ⟨text, ht⟩ := h.output
    obtain ⟨more, -, hm⟩ := exists_output_after m last
    exact ⟨j, last, cut, h, text ++ more, by rw [hm, ht, String.append_assoc]⟩

end Cut

/-- Two prints of the stack pointer, and an output that takes a line and one digit. -/
theorem run_cycles_bounded_two_lines :
    let m := loaded [0x47, 0x07, 0x47, 0x07]
    m.output = "" ∧ (∀ i < 2, failure? .unbounded (after .unbounded m i) = none) ∧
      5 < (after .unbounded m 2).output.utf8ByteSize ∧
      ∃ cut, CutShort m 5 1 cut ∧ ∃ rest, (after .unbounded m 2).output = cut.output ++ rest := by
  intro m
  have hd : m.processor.decoded = .ok .prn :=
    Processor.decoded_eq_ok_iff.mpr (by decide +kernel)
  have hf : m.processor.fault? .prn = none := by decide +kernel
  obtain ⟨success, printed, line⟩ := next_of_accepts Channel.accepts_unbounded hd hf
  have hd' : (next .unbounded m).processor.decoded = .ok .prn :=
    Processor.decoded_eq_ok_iff.mpr (by rw [printed]; decide +kernel)
  have hf' : (next .unbounded m).processor.fault? .prn = none := by rw [printed]; decide +kernel
  obtain ⟨success', -, lines⟩ := next_of_accepts Channel.accepts_unbounded hd' hf'
  have first : (handOver .unbounded m.output (m.processor.printed? .prn)).1 = "244\n" := by
    decide +kernel
  have second : (handOver .unbounded "244\n" ((m.processor.effect .prn).printed? .prn)).1 =
      "244\n244\n" := by
    decide +kernel
  rw [first] at line
  rw [line, printed, second] at lines
  have both : ∀ i < 2, failure? .unbounded (after .unbounded m i) = none := by
    intro i hi
    obtain rfl | rfl : i = 0 ∨ i = 1 := by omega
    · exact success
    · rw [after_one]
      exact success'
  have long : 5 < (after .unbounded m 2).output.utf8ByteSize := by
    rw [after_succ, after_one, lines]
    decide +kernel
  obtain ⟨-, -, overflowing⟩ := run_cycles_bounded both rfl 5
  obtain ⟨j, hj, cut, short, rest⟩ := overflowing long
  obtain rfl | rfl : j = 0 ∨ j = 1 := by omega
  · have beyond := short.overflows
    rw [Nat.zero_add, after_one, line] at beyond
    exact absurd beyond (by decide +kernel)
  · exact ⟨rfl, both, long, cut, short, rest⟩

end Machine

end ByteMachine
