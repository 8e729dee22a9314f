import ByteMachine.CommandLine
import ByteMachine.Proofs.Journal
import ByteMachine.Proofs.Output

/-!
# Loggers and reporters

The program knows nothing of the logger and of the reporter that it finds, apart from what they are
documented to do. What it shows can be told from that alone, whatever else they add to it.

* `SingleLine`: texts without a line feed.
* `Log.Renders`, `Log.IsLine`: lines that show a record, and what they all have in common.
* **`Host.Documented`**: what is documented of a host.
* `Host.documented_console`, `Host.Documented.stamped`: hosts that keep to it, among them those that
  put the time in front of a line.
-/

namespace ByteMachine

/-! ## Texts on one line -/

/-- The text has no line feed. -/
def SingleLine (text : String) : Prop := '\n' ∉ text.toList

instance (text : String) : Decidable (SingleLine text) := inferInstanceAs (Decidable (¬ _))

namespace SingleLine

@[simp]
theorem append_iff {text more : String} :
    SingleLine (text ++ more) ↔ SingleLine text ∧ SingleLine more := by
  simp [SingleLine]

theorem join {texts : List String} (h : ∀ text ∈ texts, SingleLine text) :
    SingleLine (String.join texts) := by
  intro hc
  rw [String.toList_join, List.mem_flatMap] at hc
  obtain ⟨text, ht, hc⟩ := hc
  exact h text ht hc

@[simp]
theorem repr (n : Nat) : SingleLine (Nat.repr n) :=
  fun hc => absurd (isDigit_of_mem_repr hc) (by decide)

end SingleLine

/-! ## Lines of the log -/

namespace Log

/-- Every origin. -/
def Origin.all : List Origin := [loader, memory, processor]

theorem Origin.mem_all (origin : Origin) : origin ∈ all := by
  cases origin <;> decide

/-- The origin in brackets. -/
def Origin.mark (origin : Origin) : String := " [" ++ origin.name ++ "] "

theorem Origin.singleLine_mark (origin : Origin) : SingleLine origin.mark := by
  cases origin <;> decide

/-- **The line shows the record.** The level comes first, then the origin in brackets, and the
message is all that follows. What stands around the level is open. -/
def Renders (line : String) (record : Record) : Prop :=
  ∃ head, SingleLine head ∧ record.level.name.toList <:+: head.toList ∧
    line = head ++ record.origin.mark ++ record.message

/-- The line is one of the log's: there is an origin in brackets. -/
def IsLine (line : String) : Prop := ∃ origin ∈ Origin.all, origin.mark.toList <:+: line.toList

instance (line : String) : Decidable (IsLine line) := inferInstanceAs (Decidable (∃ _ ∈ _, _))

/-- A value is no line of the log: there is no bracket in it. -/
theorem not_isLine_decimal (value : UInt8) : ¬ IsLine (Machine.decimal value) := by
  rintro ⟨origin, -, mark⟩
  have bracket : '[' ∈ origin.mark.toList := by
    simp [Origin.mark]
  exact absurd (isDigit_of_mem_repr (mark.subset bracket)) (by decide)

namespace Renders

variable {line : String} {record : Record}

theorem isLine (h : Renders line record) : IsLine line := by
  obtain ⟨head, -, -, rfl⟩ := h
  refine ⟨record.origin, record.origin.mem_all, head.toList, record.message.toList, ?_⟩
  simp only [String.toList_append]

theorem singleLine (h : Renders line record) (message : SingleLine record.message) :
    SingleLine line := by
  obtain ⟨head, single, -, rfl⟩ := h
  simp only [SingleLine.append_iff]
  exact ⟨⟨single, record.origin.singleLine_mark⟩, message⟩

theorem prepend {stamp : String} (single : SingleLine stamp) (h : Renders line record) :
    Renders (stamp ++ line) record := by
  obtain ⟨head, single', name, rfl⟩ := h
  refine ⟨stamp ++ head, SingleLine.append_iff.mpr ⟨single, single'⟩, ?_, ?_⟩
  · rw [String.toList_append]
    exact name.trans (List.suffix_append _ _).isInfix
  · simp only [String.append_assoc]

end Renders

/-- The logger writes a record as a line that shows it. -/
def Writer.WritesLines (writer : Writer) : Prop :=
  ∀ moment record, ∃ line, Renders line record ∧ writer.write moment record = line ++ "\n"

/-- The logger that puts a stamp in front of what another one writes. -/
def Writer.stamped (stamp : Nat → String) (writer : Writer) : Writer :=
  { writer with write := fun moment record => stamp moment ++ writer.write moment record }

end Log

/-! ## Hosts -/

namespace Host

/-- **What is documented of reporters and loggers.** -/
structure Documented (host : Host) : Prop where
  /-- A reporter is put in place unless there already is one, and a program starts without. -/
  installs_reporter : host.installReporter = .ok ()
  /-- The same is documented of loggers. -/
  installs_logger : host.installLogger = .ok ()
  /-- A record becomes one line, with its level, its origin and its message. -/
  writesLines : ∀ setting asked, (host.logger setting asked).WritesLines
  /-- If the environment says nothing, the level is the one that the program asks for. -/
  unset : ∀ asked level, (host.logger none asked).admits level = level.allowedBy (some asked)
  /-- An error with nothing behind it is shown by its text. -/
  chain_message : ∀ text, host.chain (.message text) = [text]
  /-- An error is followed by what it was made from. -/
  chain_madeFrom : ∀ text source, host.chain (.madeFrom text source) = text :: host.chain source
  /-- What was going on is followed by the error. -/
  chain_context : ∀ text error, host.chain (.context text error) = text :: host.chain error

theorem Documented.chain_eq {host : Host} (h : host.Documented) (cause : Cause) :
    host.chain cause = cause.texts := by
  induction cause with
  | message text => exact h.chain_message text
  | madeFrom text source ih => rw [h.chain_madeFrom, ih, Cause.texts]
  | context text error ih => rw [h.chain_context, ih, Cause.texts]

/-- The host whose logger puts a stamp in front of each line. -/
def stamped (stamp : Nat → String) (host : Host) : Host :=
  { host with logger := fun setting asked => (host.logger setting asked).stamped stamp }

theorem Documented.stamped {host : Host} (h : host.Documented) {stamp : Nat → String}
    (single : ∀ moment, SingleLine (stamp moment)) : (host.stamped stamp).Documented :=
  { h with
    writesLines := fun setting asked moment record => by
      obtain ⟨line, renders, written⟩ := h.writesLines setting asked moment record
      refine ⟨stamp moment ++ line, renders.prepend (single moment), ?_⟩
      rw [String.append_assoc, ← written]
      rfl }

end Host

end ByteMachine
