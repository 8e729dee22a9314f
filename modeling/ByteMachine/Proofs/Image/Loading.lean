import ByteMachine.Proofs.Image.Format
import ByteMachine.Proofs.Parts

/-!
# Loading a program image, against its format

Loading takes in one row after the other. After any number of them the bytes of these rows lie over
the memory as far as they fit, and their faults have been collected, so that the outcome can be read
off the format.

* `Loading.reached`: loading after some rows; `line_reached`, `foldl_reached`: one more, many more.
* **`load_eq_reached`**: loading after the whole text.
* **`load_accepts`**: which texts are loaded, and what the memory is.
* **`load_reports`**: what is reported of all others.
-/

namespace ByteMachine

variable {size : Nat}

theorem Memory.overlay_concat (block : List UInt8) (value : UInt8) (memory : Memory size) :
    overlay 0 (block ++ [value]) memory = (overlay 0 block memory).set block.length value := by
  ext1 address
  rw [get?_set, get?_overlay, get?_overlay, if_pos (Nat.zero_le _), if_pos (Nat.zero_le _),
    Nat.sub_zero]
  by_cases ha : address < size
  · rw [get?_of_lt ha, Option.map_some, Option.map_some]
    obtain hlt | rfl | hgt := Nat.lt_trichotomy address block.length
    · rw [if_neg (fun hc => Nat.ne_of_lt hlt hc.1), List.getElem?_append_left hlt]
    · simp [ha]
    · rw [if_neg (fun hc => Nat.ne_of_gt hgt hc.1), List.getElem?_eq_none (Nat.le_of_lt hgt),
        List.getElem?_eq_none (by simp; omega)]
  · rw [if_neg (fun hc => ha hc.2), get?_of_le (Nat.le_of_not_lt ha)]
    rfl

theorem Memory.set_of_le {memory : Memory size} {address : Nat} (h : size ≤ address)
    (value : UInt8) : memory.set address value = memory := by
  ext1 other
  rw [get?_set, if_neg]
  omega

namespace Image

namespace Loading

/-- Loading after some rows, of which these faults have been noted. -/
def reached (memory : Memory size) (rows : List Row) (errors : List LineError) : Loading size where
  memory := memory.overlay 0 (stored rows)
  next := min size (stored rows).length
  errors := errors.toArray
  log := (errors.map LineError.record).toArray

variable {memory : Memory size} {rows : List Row} {errors : List LineError}

theorem reached_concat {row : Row} (h : ¬ row.Carries) :
    reached memory (rows ++ [row]) errors = reached memory rows errors := by
  rw [reached, stored_append, stored_singleton, if_neg h, List.append_nil, reached]

theorem fail_reached (number : Nat) (fault : LineFault) :
    (reached memory rows errors).fail number fault =
      reached memory rows (errors ++ [⟨number, fault⟩]) := by
  simp [fail, reached]

/-- A byte is stored at the end of what is there, or there is no address left for it. -/
theorem store_reached {row : Row} (h : row.Carries) :
    (reached memory rows errors).store row.number (lineByte row.line) =
      reached memory (rows ++ [row]) (errors ++
        if size ≤ (stored rows).length then [⟨row.number, .invalidAddress size⟩] else []) := by
  have hs : stored (rows ++ [row]) = stored rows ++ [lineByte row.line] := by
    rw [stored_append, stored_singleton, if_pos h]
  have hw := Memory.checked_write (memory.overlay 0 (stored rows))
  unfold reached store
  dsimp only
  rw [hs, Memory.overlay_concat, List.length_append, List.length_singleton]
  by_cases hn : size ≤ (stored rows).length
  · rw [if_pos hn, Nat.min_eq_left hn, Nat.min_eq_left (Nat.le_succ_of_le hn),
      (hw size _).run_of_failed (Fault.unless_of_neg (Nat.lt_irrefl size)), Memory.set_of_le hn]
    simp [fail]
  · have hlt := Nat.lt_of_not_le hn
    rw [if_neg hn, List.append_nil, Nat.min_eq_right (Nat.le_of_lt hlt), Nat.min_eq_right hlt,
      (hw _ _).run_of_passed (Fault.unless_of_pos hlt)]

/-- **One more row.** -/
theorem line_reached (row : Row) :
    (reached memory rows errors).line row.number row.line =
      reached memory (rows ++ [row]) (errors ++ row.errors size (stored rows).length) := by
  unfold line Row.errors Row.fault?
  by_cases hs : Significant row.line
  · rw [if_pos ((isSignificant_iff _).mpr hs), byte?_literal hs, literal_eq_word,
      if_neg (not_not_intro hs)]
    by_cases hv : Valid row.line
    · rw [if_pos hv, if_neg (not_not_intro hv)]
      dsimp only
      rw [store_reached ⟨hs, hv⟩]
      split_ifs <;> rfl
    · rw [if_neg hv, if_pos hv]
      dsimp only
      rw [fail_reached, reached_concat fun hc => hv hc.2]
      rfl
  · rw [if_neg fun h => hs ((isSignificant_iff _).mp h), if_pos hs,
      reached_concat fun hc => hs hc.1]
    simp

theorem foldl_reached (before : List Row) (errors : List LineError) (rows : List Row) :
    rows.foldl (fun loading row => loading.line row.number row.line)
        (reached memory before errors) =
      reached memory (before ++ rows) (errors ++ faultsAfter size before rows) := by
  induction rows generalizing before errors with
  | nil => rw [List.append_nil, faultsAfter, List.append_nil]; rfl
  | cons row rest ih =>
    rw [List.foldl_cons, line_reached, ih, faultsAfter, List.append_assoc, List.append_assoc]
    rfl

end Loading

/-! ## Whole texts -/

variable (text : String) (memory : Memory size)

/-- The faults of a text in a memory of this size. -/
def faults (size : Nat) (text : String) : List LineError := faultsAfter size [] (rows text.toList)

/-- **Loading after the whole text.** -/
theorem load_eq_reached :
    load text memory = .reached memory (rows text.toList) (faults size text) := by
  have h0 : ({ memory } : Loading size) = .reached memory [] [] := by
    simp [Loading.reached, stored, Memory.overlay_nil]
  rw [load, foldl_lines, h0, Loading.foldl_reached]
  · rfl
  · exact fun loading number => rfl

theorem outcome_load :
    (load text memory).outcome =
      if faults size text = [] then .ok (memory.overlay 0 (stored (rows text.toList)))
      else .error (faults size text) := by
  rw [load_eq_reached, Loading.outcome, Loading.reached]
  simp

theorem records_load :
    (load text memory).records =
      if faults size text = [] then
        [⟨.debug, .loader,
          "Loaded " ++ Nat.repr (min size (stored (rows text.toList)).length) ++ " bytes"⟩]
      else (faults size text).map LineError.record := by
  rw [load_eq_reached, Loading.records, Loading.reached]
  by_cases h : faults size text = []
  · simp [h]
  · simp [h]

theorem faults_eq_nil_iff :
    faults size text = [] ↔ (∀ line ∈ significant (rows text.toList), Valid line) ∧
      (significant (rows text.toList)).length ≤ size := by
  rw [faults, faultsAfter_eq_nil_iff]
  have h0 : (stored []).length = 0 := rfl
  rw [← List.length_eq_zero_iff, h0, Nat.zero_add]
  exact and_congr_right fun _ => by omega

/-- **The loader accepts its format and nothing else**: a text is loaded if every significant line
of it is valid and the memory has room for all of them. Then the byte of each of them is found at
its place, the rest of the memory is as it was, and the number of bytes is logged. -/
theorem load_accepts :
    let lines := significant (rows text.toList)
    ((∃ loaded, (load text memory).outcome = .ok loaded) ↔
      (∀ line ∈ lines, Valid line) ∧ lines.length ≤ size) ∧
    ∀ loaded, (load text memory).outcome = .ok loaded →
      (∀ i (h : i < lines.length), loaded.get? i = some (lineByte lines[i])) ∧
      (∀ address, lines.length ≤ address → loaded.get? address = memory.get? address) ∧
      (load text memory).records =
        [⟨.debug, .loader, "Loaded " ++ Nat.repr lines.length ++ " bytes"⟩] := by
  intro lines
  rw [outcome_load, records_load]
  have iff : faults size text = [] ↔ (∀ line ∈ lines, Valid line) ∧ lines.length ≤ size :=
    faults_eq_nil_iff text
  by_cases hf : faults size text = []
  · rw [if_pos hf, if_pos hf]
    refine ⟨⟨fun _ => iff.mp hf, fun _ => ⟨_, rfl⟩⟩, ?_⟩
    rintro _ ⟨⟩
    obtain ⟨valid, room⟩ := iff.mp hf
    have hs : stored (rows text.toList) = lines.map lineByte := stored_eq_map valid
    rw [hs, List.length_map, Nat.min_eq_right room]
    refine ⟨fun i hi => ?_, fun address ha => ?_, rfl⟩
    · rw [Memory.get?_overlay, if_pos (Nat.zero_le i), Nat.sub_zero,
        Memory.get?_of_lt (Nat.lt_of_lt_of_le hi room)]
      simp [hi]
    · rw [Memory.get?_overlay, if_pos (Nat.zero_le address), Nat.sub_zero,
        List.getElem?_eq_none (by simpa using ha)]
      cases memory.get? address <;> rfl
  · rw [if_neg hf]
    refine ⟨⟨fun h => ?_, fun h => absurd (iff.mpr h) hf⟩, ?_⟩
    · obtain ⟨loaded, ⟨⟩⟩ := h
    · rintro _ ⟨⟩

example : (load "# image\r\n0001 # one\n 1\n10000010\t\r\n" (Memory.zero 3)).outcome =
    .ok ⟨#v[1, 130, 0]⟩ := by
  decide +kernel

/-- **The loader reports every fault once, in order and at its place.** -/
theorem load_reports {text : String} {memory : Memory size} {errors : List LineError}
    (h : (load text memory).outcome = .error errors) :
    (∀ error, error ∈ errors ↔ ∃ before row after,
      rows text.toList = before ++ row :: after ∧ row.StandsIn text.toList ∧
        error.line = row.number ∧
        row.fault? size (before.countP (·.Carries)) = some error.fault) ∧
    errors.Pairwise (fun error later => error.line < later.line) ∧
    (load text memory).records = errors.map (fun error => ⟨.error, .loader, error.message⟩) ∧
    (ofText text : Loaded size).result = .error (.malformed errors) ∧
    ∃ first rest, errors = first :: rest ∧
      LoadError.message (.malformed errors) =
        "program has " ++ Nat.repr errors.length ++ " malformed line(s), first: " ++
          first.message := by
  have hf : faults size text ≠ [] ∧ faults size text = errors := by
    rw [outcome_load] at h
    split_ifs at h with hf
    exact ⟨hf, Except.error.inj h⟩
  obtain ⟨hf, he⟩ := hf
  refine ⟨fun error => ?_, ?_, ?_, ?_, ?_⟩
  · rw [← he, faults, mem_faultsAfter_iff]
    simp only [List.nil_append, length_stored]
    refine exists_congr fun before => exists_congr fun row => exists_congr fun after =>
      and_congr_right fun hr => (and_iff_right (standsIn_of_mem_rows ?_)).symm
    rw [hr]
    exact List.mem_append_right _ List.mem_cons_self
  · rw [← he]
    exact pairwise_faults size _
  · rw [records_load, if_neg hf, he]
    rfl
  · rw [ofText, outcome_load, if_neg hf, he]
    rfl
  · rw [he] at hf
    obtain ⟨first, rest, rfl⟩ := List.exists_cons_of_ne_nil hf
    exact ⟨first, rest, rfl, rfl⟩

/-- Two digits with a blank between them, and a byte too many. -/
theorem load_reports_too_long :
    let text := "0 0 # apart\n1\r\n\n10\n# end"
    let errors := [⟨1, .invalidLiteral "0 0"⟩, ⟨4, .invalidAddress 1⟩]
    (load text (Memory.zero 1)).outcome = .error errors ∧
      (∀ error, error ∈ errors ↔ ∃ before row after,
        rows text.toList = before ++ row :: after ∧ row.StandsIn text.toList ∧
          error.line = row.number ∧
          row.fault? 1 (before.countP (·.Carries)) = some error.fault) ∧
      errors.Pairwise (fun error later => error.line < later.line) ∧
      (load text (Memory.zero 1)).records =
        errors.map (fun error => ⟨.error, .loader, error.message⟩) ∧
      (ofText text : Loaded 1).result = .error (.malformed errors) ∧
      LoadError.message (.malformed errors) =
        "program has 2 malformed line(s), first: " ++
          "error [ln: 1]: invalid literal - `0 0` is not an 8-bit binary number" := by
  intro text errors
  have h : (load text (Memory.zero 1)).outcome = .error errors := by decide +kernel
  obtain ⟨mem, sorted, records, result, first, rest, he, message⟩ := load_reports h
  obtain ⟨rfl, rfl⟩ := List.cons.inj he
  exact ⟨h, mem, sorted, records, result, message.trans (by decide +kernel)⟩

end Image

end ByteMachine
