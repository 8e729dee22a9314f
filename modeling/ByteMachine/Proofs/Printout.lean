import Mathlib
import ByteMachine.Proofs.Display

/-!
# Reading a printout

What a machine prints on an output that takes everything are the values of its successful print
instructions, in decimal and each on a line of its own. No other cycle hands anything over, so that
the values can be read off the text, and the text says no more than the values.

* `Channel.Collects`: outputs that take everything, and of which one can see what they took.
* `IsDecimal`, **`isDecimal_repr`**: numbers in decimal, without leading zeros.
* `printout`, **`readValues?_printout`**: values as they are printed, and read again.
* **`Machine.output_next`**, `Machine.taken_after`: the output of a cycle, and of many.
* **`Machine.values_of_writes`**: the text that cycles write.
-/

namespace ByteMachine

variable {σ τ : Type}

/-- **The channel takes everything**, and `taken` shows the text that it has taken so far. -/
structure Channel.Collects (channel : Channel σ) (taken : σ → String) : Prop where
  accepts : channel.Accepts
  takes (state : σ) (text : String) : taken (channel.write state text).1 = taken state ++ text

theorem Channel.collects_unbounded : unbounded.Collects id :=
  ⟨accepts_unbounded, fun _ _ => rfl⟩

/-! ## Numbers in decimal -/

/-- **The text is the number in decimal**: it has nothing but digits, no leading zero, and reads as
the number. -/
structure IsDecimal (text : String) (n : Nat) : Prop where
  digits : ∀ c ∈ text.toList, c.isDigit = true
  noLeadingZero : text.toList.head? = some '0' → text = "0"
  reads : text.toNat? = some n

theorem isDecimal_repr (n : Nat) : IsDecimal (Nat.repr n) n where
  digits _ hc := isDigit_of_mem_repr hc
  noLeadingZero h := by
    rw [Nat.repr, String.toList_ofList] at h
    rw [eq_zero_of_head?_toDigits (by decide) (by decide) h]
    rfl
  reads := Nat.toNat?_repr n

/-- Values as they are printed, each on a line of its own. -/
def printout (values : List UInt8) : String :=
  String.join (values.map (Machine.decimal · ++ "\n"))

/-- The numbers on the lines of a text. -/
def readValues? (text : String) : Option (List Nat) :=
  (CommandLine.textLines text).mapM String.toNat?

theorem printout_append (values more : List UInt8) :
    printout (values ++ more) = printout values ++ printout more := by
  rw [printout, List.map_append, String.join_append, printout, printout]

/-- **The values can be read off a printout.** -/
theorem readValues?_printout (values : List UInt8) :
    readValues? (printout values) = some (values.map (·.toNat)) := by
  induction values with
  | nil => rfl
  | cons value values ih =>
    have single : SingleLine (Machine.decimal value) := SingleLine.repr _
    have reads : (Machine.decimal value).toNat? = some value.toNat := (isDecimal_repr _).reads
    rw [printout, List.map_cons, String.join_cons, ← printout, readValues?,
      CommandLine.textLines_append single, List.mapM_cons, reads, ← readValues?, ih]
    rfl

theorem printout_injective : Function.Injective printout := by
  intro values values' h
  have read := readValues?_printout values
  rw [h, readValues?_printout, Option.some.injEq] at read
  exact (List.map_injective_iff.mpr fun _ _ => UInt8.toNat_inj.mp) read.symm

namespace Machine

variable {channel : Channel σ} {m : Machine σ}

/-! ## The text that cycles write -/

/-- **The output of a cycle.** A print instruction that succeeds hands over the value of its operand
in decimal, in one piece with the end of the line, and no other cycle hands over anything. -/
theorem output_next (accepts : channel.Accepts) (m : Machine σ) :
    (next channel m).output =
      match printedValue? channel m with
      | none => m.output
      | some value => (channel.write m.output (decimal value ++ "\n")).1 := by
  unfold printedValue?
  rw [failure?_of_accepts accepts]
  cases hd : m.processor.decoded with
  | error fault =>
    refine output_next_of_failed fun op h => ?_
    rw [hd] at h
    cases h
  | ok op =>
    dsimp only
    cases hf : m.processor.fault? op with
    | some fault =>
      have refused : (next channel m).output = m.output := by
        refine output_next_of_failed fun op' h => ?_
        obtain rfl := Except.ok.inj (hd.symm.trans h)
        rw [hf]
        exact Option.some_ne_none fault
      cases op <;> exact refused
    | none =>
      obtain ⟨-, -, ho⟩ := next_of_accepts accepts hd hf
      cases op <;> exact ho

section Collects

variable {taken : σ → String} (collects : channel.Collects taken)
include collects

theorem taken_next (m : Machine σ) :
    taken (next channel m).output =
      taken m.output ++ printout (printedValue? channel m).toList := by
  rw [output_next collects.accepts]
  cases printedValue? channel m with
  | none => exact String.append_empty.symm
  | some value =>
    refine (collects.takes _ _).trans ?_
    simp [printout]

theorem taken_after (m : Machine σ) (k : Nat) :
    taken (after channel m k).output = taken m.output ++ printout (printedValues channel m k) := by
  induction k with
  | zero => exact String.append_empty.symm
  | succ k ih =>
    rw [after_succ, taken_next collects, ih, printedValues_succ, printout_append,
      String.append_assoc]

end Collects

/-- The text is what `k` cycles write: what comes after all that was taken before. -/
def Writes (channel : Channel σ) (taken : σ → String) (m : Machine σ) (k : Nat) (text : String) :
    Prop :=
  taken (after channel m k).output = taken m.output ++ text

theorem writes_iff {taken : σ → String} (collects : channel.Collects taken) {k : Nat}
    {text : String} :
    Writes channel taken m k text ↔ text = printout (printedValues channel m k) := by
  rw [Writes, taken_after collects, String.append_right_inj, eq_comm]

/-- **The text that cycles write says which values they print**, and nothing else: it is made up of
these values in decimal, each with the end of a line, it reads as these values, and no other cycle
touches the output. Cycles of two machines write the same text if they print the same values. -/
theorem values_of_writes {taken : σ → String} (collects : channel.Collects taken) (m : Machine σ)
    (k : Nat) :
    (∃ text, Writes channel taken m k text) ∧
    (∀ text, Writes channel taken m k text →
      text = String.join ((printedValues channel m k).map (decimal · ++ "\n")) ∧
      (∀ value ∈ printedValues channel m k, IsDecimal (decimal value) value.toNat) ∧
      readValues? text = some ((printedValues channel m k).map (·.toNat))) ∧
    (∀ j, printedValue? channel (after channel m j) = none →
      (after channel m (j + 1)).output = (after channel m j).output) ∧
    ∀ {τ : Type} {channel' : Channel τ} {taken' : τ → String}, channel'.Collects taken' →
      ∀ (w : Machine τ) (l : Nat) (text text' : String), Writes channel taken m k text →
        Writes channel' taken' w l text' →
        (text = text' ↔ printedValues channel m k = printedValues channel' w l) := by
  refine ⟨⟨_, (writes_iff collects).mpr rfl⟩, fun text h => ?_, fun j silent => ?_, ?_⟩
  · obtain rfl := (writes_iff collects).mp h
    exact ⟨rfl, fun value _ => isDecimal_repr value.toNat, readValues?_printout _⟩
  · rw [after_succ, output_next collects.accepts, silent]
  · intro τ channel' taken' collects' w l text text' h h'
    rw [(writes_iff collects).mp h, (writes_iff collects').mp h']
    exact printout_injective.eq_iff

/-- Two prints of the stack pointer, and a print of a register that there is not. -/
theorem values_of_writes_two_lines :
    let m := loaded [0x47, 7, 0x47, 7, 0x47, 8]
    Writes .unbounded id m 4 "244\n244\n" ∧ readValues? "244\n244\n" = some [244, 244] ∧
      (after .unbounded m 3).output = (after .unbounded m 2).output ∧
      printedValues .unbounded m 4 = printedValues .unbounded m 2 := by
  intro m
  have writes : Writes .unbounded id m 4 "244\n244\n" := by
    unfold Writes
    decide +kernel
  have writes' : Writes .unbounded id m 2 "244\n244\n" := by
    unfold Writes
    decide +kernel
  have values : printedValues .unbounded m 4 = [244, 244] := by decide +kernel
  obtain ⟨-, reads, silent, same⟩ := values_of_writes Channel.collects_unbounded m 4
  obtain ⟨-, -, read⟩ := reads _ writes
  rw [values] at read
  exact ⟨writes, read, silent 2 (by decide +kernel),
    (same Channel.collects_unbounded m 2 _ _ writes writes').mp rfl⟩

end Machine

end ByteMachine
