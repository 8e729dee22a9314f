import ByteMachine.Proofs.Image.Loading

/-!
# Listings

A listing writes bytes down as a program image: a line of binary digits for each byte, and any other
lines before, between and after them. Loading a listing comes to the same as storing its bytes as a
block, and fails where the block does not fit.

* `map_line_rows_append`, `significant_chomp_iff`, `word_chomp`: texts line by line.
* `ListedLine`, `Listing`: the lines of a listing, and listings.
* `Listing.significant_rows`: the significant lines of a listing.
* **`ofText_eq_writeBlock`**: the two ways to fill a memory.
-/

namespace ByteMachine.Image

/-! ## Texts line by line -/

theorem map_line_rowsAfter (before before' : List Char) (pieces : List (List Char)) :
    (rowsAfter before pieces).map (·.line) = (rowsAfter before' pieces).map (·.line) := by
  induction before, pieces using rowsAfter.induct generalizing before' with
  | case1 before => rfl
  | case2 before last => rfl
  | case3 before piece next rest ih =>
    rw [rowsAfter, rowsAfter, List.map_cons, List.map_cons, ih]

theorem map_line_rows_append {piece : List Char} (h : '\n' ∉ piece) (text : List Char) :
    (rows (piece ++ '\n' :: text)).map (·.line) = chomp piece :: (rows text).map (·.line) := by
  obtain ⟨next, rest, hs⟩ := List.exists_cons_of_ne_nil (List.splitOn_ne_nil '\n' text)
  rw [rows, List.splitOn_append_cons_self_of_not_mem h, rows, hs, rowsAfter, List.map_cons]
  exact congrArg _ (map_line_rowsAfter _ _ _)

theorem map_line_rows {line : List Char} (h : '\n' ∉ line) :
    (rows line).map (·.line) = [line] := by
  rw [rows, List.splitOn_eq_singleton h]
  rfl

theorem chomp_concat (line : List Char) : chomp (line ++ ['\r']) = line := by
  simp [chomp]

theorem eq_or_eq_chomp (line : List Char) : chomp line = line ∨ line = chomp line ++ ['\r'] := by
  unfold chomp
  split_ifs with h
  · obtain ⟨front, rfl⟩ := List.getLast?_eq_some_iff.mp h
    simp
  · exact .inl rfl

theorem significant_chomp_iff (line : List Char) :
    Significant (chomp line) ↔ Significant line := by
  obtain h | h := eq_or_eq_chomp line
  · rw [h]
  · rw [h, chomp_concat]
    cases chomp line <;> simp [Significant]

theorem word_concat_cr (line : List Char) : word (line ++ ['\r']) = word line := by
  obtain ⟨blanks, comment, hl, last, blank, bare, remark⟩ := word_eq_iff.mp (rfl : word line = _)
  obtain rfl | remark := remark
  · -- there is no comment, so that the carriage return is one more blank
    refine word_eq_iff.mpr ⟨blanks ++ ['\r'], [], ?_, last, ?_, ?_, .inl rfl⟩
    · simpa using congrArg (· ++ ['\r']) hl
    · exact List.forall_mem_append.mpr ⟨blank, List.forall_mem_singleton.mpr (by decide)⟩
    · simpa using bare
  · refine word_eq_iff.mpr ⟨blanks, comment ++ ['\r'], ?_, last, blank, bare, .inr ?_⟩
    · simpa using congrArg (· ++ ['\r']) hl
    · rw [List.head?_append, remark, Option.some_or]

theorem word_chomp (line : List Char) : word (chomp line) = word line := by
  obtain h | h := eq_or_eq_chomp line
  · rw [h]
  · conv_rhs => rw [h]
    rw [word_concat_cr]

/-! ## Listings -/

/-- **A line of a listing**, without its end, and the byte that it stands for, if any. -/
inductive ListedLine : List UInt8 → List Char → Prop
  /-- A byte in binary digits, then perhaps blanks and a comment. -/
  | byte {byte : UInt8} {digits blanks comment : List Char} (digits_ne_nil : digits ≠ [])
      (binary : IsBinary digits) (number : binaryNumber digits = byte.toNat)
      (blank : ∀ c ∈ blanks, isBlank c = true ∧ c ≠ '\n')
      (remark : comment = [] ∨ ∃ words, comment = '#' :: words ∧ '\n' ∉ words) :
      ListedLine [byte] (digits ++ blanks ++ comment)
  /-- Any other line. -/
  | other {line : List Char} (plain : ¬ Significant line) (single : '\n' ∉ line) :
      ListedLine [] line

/-- **A text that lists bytes.** Its last line may go without an end. -/
inductive Listing : List UInt8 → List Char → Prop
  | last {bytes : List UInt8} {line : List Char} (shows : ListedLine bytes line) :
      Listing bytes line
  | line {bytes more : List UInt8} {line ending text : List Char} (shows : ListedLine bytes line)
      (ends : ending = ['\n'] ∨ ending = ['\r', '\n']) (rest : Listing more text) :
      Listing (bytes ++ more) (line ++ ending ++ text)

theorem not_mem_of_isBinary {digits : List Char} (h : IsBinary digits) {c : Char} (h0 : c ≠ '0')
    (h1 : c ≠ '1') : c ∉ digits :=
  fun hc => (h c hc).elim h0 h1

theorem word_listed {digits blanks comment : List Char} (binary : IsBinary digits)
    (blank : ∀ c ∈ blanks, isBlank c = true) (remark : comment = [] ∨ comment.head? = some '#') :
    word (digits ++ blanks ++ comment) = digits := by
  rw [word_append (not_mem_of_isBinary binary (by decide) (by decide)) blank remark]
  refine List.rdropWhile_eq_self_iff.mpr fun hne => ?_
  obtain h | h := binary _ (List.getLast_mem hne) <;> rw [h] <;> decide

/-! ## The lines of a listing -/

namespace ListedLine

variable {bytes : List UInt8} {line : List Char}

theorem single (h : ListedLine bytes line) : '\n' ∉ line := by
  cases h with
  | byte digits_ne_nil binary number blank remark =>
    have hd := not_mem_of_isBinary binary (c := '\n') (by decide) (by decide)
    have hb := fun hc => (blank '\n' hc).2 rfl
    obtain rfl | ⟨words, rfl, hw⟩ := remark <;> simp_all
  | other plain single => exact single

theorem filter_eq (h : ListedLine bytes line) :
    (Significant line → Valid line) ∧
      (if Significant line then [lineByte line] else []) = bytes := by
  cases h with
  | @byte byte digits blanks comment digits_ne_nil binary number blank remark =>
    have hs : Significant (digits ++ blanks ++ comment) := by
      cases digits with
      | nil => exact absurd rfl digits_ne_nil
      | cons c digits => simpa [Significant] using (isBinary_cons_iff.mp binary).1
    have hl : word (digits ++ blanks ++ comment) = digits := by
      refine word_listed binary (fun c hc => (blank c hc).1) (remark.imp_right ?_)
      rintro ⟨words, rfl, -⟩
      rfl
    refine ⟨fun _ => ⟨by rwa [hl], ?_⟩, ?_⟩
    · rw [hl, number]
      exact Nat.le_of_lt_succ byte.toNat_lt
    · rw [if_pos hs, lineByte, hl, number, UInt8.ofNat_toNat]
  | other plain single => exact ⟨fun hs => absurd hs plain, if_neg plain⟩

end ListedLine

/-- The lines of a text whose first line has an end of either kind. What is read as the first line
may lack a carriage return that comes before a line feed alone. -/
theorem map_line_rows_line {line ending : List Char} (h : '\n' ∉ line)
    (ends : ending = ['\n'] ∨ ending = ['\r', '\n']) (text : List Char) :
    ∃ read, (rows (line ++ ending ++ text)).map (·.line) = read :: (rows text).map (·.line) ∧
      (Significant read ↔ Significant line) ∧ word read = word line := by
  obtain rfl | rfl := ends
  · refine ⟨chomp line, ?_, significant_chomp_iff line, word_chomp line⟩
    rw [← map_line_rows_append h, List.append_assoc, List.singleton_append]
  · have hr : '\n' ∉ line ++ ['\r'] := by simpa using h
    have hl := map_line_rows_append hr text
    rw [chomp_concat] at hl
    exact ⟨line, by simpa using hl, Iff.rfl, rfl⟩

namespace Listing

variable {bytes : List UInt8} {text : List Char}

/-- **The significant lines of a listing** are valid, and stand for its bytes. -/
theorem significant_rows (h : Listing bytes text) :
    (∀ line ∈ significant (rows text), Valid line) ∧
      (significant (rows text)).map lineByte = bytes := by
  unfold significant
  induction h with
  | last shows =>
    obtain ⟨valid, byte⟩ := shows.filter_eq
    rw [map_line_rows shows.single, List.filter_singleton, ← byte]
    split_ifs with hs <;> simp_all
  | @line bytes more line ending text shows ends rest ih =>
    obtain ⟨valid, byte⟩ := shows.filter_eq
    obtain ⟨read, hr, hs, hl⟩ := map_line_rows_line shows.single ends text
    have hv : Valid read ↔ Valid line := by rw [Valid, Valid, hl]
    have hb : lineByte read = lineByte line := by rw [lineByte, lineByte, hl]
    rw [hr, List.filter_cons, ← byte]
    by_cases h : Significant line
    · rw [if_pos (decide_eq_true (hs.mpr h)), if_pos h, List.forall_mem_cons, List.map_cons, hb,
        ih.2]
      exact ⟨⟨hv.mpr (valid h), ih.1⟩, rfl⟩
    · rw [if_neg (by simp [hs, h]), if_neg h]
      exact ih

variable {size : Nat}

theorem stored_rows (h : Listing bytes text) : stored (rows text) = bytes := by
  obtain ⟨valid, values⟩ := h.significant_rows
  rw [stored_eq_map valid, values]

theorem faults_eq_nil_iff {text : String} (h : Listing bytes text.toList) :
    faults size text = [] ↔ bytes.length ≤ size := by
  obtain ⟨valid, values⟩ := h.significant_rows
  rw [Image.faults_eq_nil_iff, and_iff_right valid, ← values, List.length_map]

end Listing

/-! ## Two ways to fill a memory -/

/-- **A listing and a block of the same bytes fill a memory alike**, if they fit, and both are
refused if they do not. Sizes of memories are addresses. -/
theorem ofText_eq_writeBlock {size : Nat} (addressable : size < addressLimit) {bytes : List UInt8}
    {text : String} (h : Listing bytes text.toList) :
    ((∃ memory, (ofText text : Loaded size).result = .ok memory) ↔ bytes.length ≤ size) ∧
    (bytes.length ≤ size → ∃ memory, (ofText text : Loaded size).result = .ok memory ∧
      (Memory.writeBlock 0 bytes).run (.zero size) = .ok () memory) ∧
    (size < bytes.length →
      (∃ errors, (ofText text : Loaded size).result = .error (.malformed errors)) ∧
      ∃ error, (Memory.writeBlock 0 bytes).run (.zero size) = .error error (.zero size) ∧
        (bytes.length < addressLimit →
          error = .fault (.outOfBounds .memory (bytes.length - 1)))) := by
  have result : (ofText text : Loaded size).result =
      if bytes.length ≤ size then .ok (Memory.overlay 0 bytes (.zero size))
      else .error (.malformed (faults size text)) := by
    rw [ofText, outcome_load, h.stored_rows]
    simp only [h.faults_eq_nil_iff]
    split_ifs <;> rfl
  have block := Memory.run_writeBlock 0 bytes (.zero size)
  rw [Nat.zero_add] at block
  refine ⟨?_, fun fits => ⟨_, by rw [result, if_pos fits], ?_⟩, fun exceeds => ⟨?_, ?_⟩⟩
  · rw [result]
    split_ifs with fits <;> simp [fits]
  · rw [block, if_neg (by omega), if_neg (Nat.not_lt.mpr fits)]
  · exact ⟨_, by rw [result, if_neg (Nat.not_le.mpr exceeds)]⟩
  · rw [block, if_pos exceeds]
    split_ifs with overflow
    · exact ⟨_, rfl, fun hlt => absurd hlt (Nat.not_lt.mpr overflow)⟩
    · exact ⟨_, rfl, fun _ => rfl⟩

/-- Three bytes with leading zeros, blanks, a comment, both kinds of line ends and other lines, in a
memory with room for them and in one without. -/
theorem ofText_eq_writeBlock_three :
    let text := "; three bytes\r\n0001 # one\n\n 0\n10\t\r\n111"
    Listing [1, 2, 7] text.toList ∧
      (∃ memory, (ofText text : Loaded 4).result = .ok memory ∧
        (Memory.writeBlock 0 [1, 2, 7]).run (.zero 4) = .ok () memory ∧
        memory = ⟨#v[1, 2, 7, 0]⟩) ∧
      (∃ errors, (ofText text : Loaded 2).result = .error (.malformed errors)) ∧
      ∃ error, (Memory.writeBlock 0 [1, 2, 7]).run (.zero 2) = .error error (.zero 2) := by
  intro text
  have one : ListedLine [1] ("0001".toList ++ " ".toList ++ "# one".toList) :=
    .byte (by decide) (by decide) (by decide) (List.forall_mem_singleton.mpr (by decide))
      (.inr ⟨" one".toList, by decide, by decide⟩)
  have two : ListedLine [2] ("10".toList ++ "\t".toList ++ []) :=
    .byte (by decide) (by decide) (by decide) (List.forall_mem_singleton.mpr (by decide)) (.inl rfl)
  have seven : ListedLine [7] ("111".toList ++ [] ++ []) :=
    .byte (by decide) (by decide) (by decide) (List.forall_mem_nil _) (.inl rfl)
  have split : text.toList = "; three bytes".toList ++ ['\r', '\n'] ++
      ("0001".toList ++ " ".toList ++ "# one".toList ++ ['\n'] ++
        ([] ++ ['\n'] ++ (" 0".toList ++ ['\n'] ++
          ("10".toList ++ "\t".toList ++ [] ++ ['\r', '\n'] ++ ("111".toList ++ [] ++ []))))) := by
    decide +kernel
  have listing : Listing ([] ++ ([1] ++ ([] ++ ([] ++ ([2] ++ [7]))))) text.toList := by
    rw [split]
    exact .line (.other (by decide) (by decide)) (.inr rfl) <| .line one (.inl rfl) <|
      .line (.other (by decide) (by decide)) (.inl rfl) <|
      .line (.other (by decide) (by decide)) (.inl rfl) <| .line two (.inr rfl) <| .last seven
  obtain ⟨-, same, -⟩ := ofText_eq_writeBlock (by decide : 4 < addressLimit) listing
  obtain ⟨-, -, refused⟩ := ofText_eq_writeBlock (by decide : 2 < addressLimit) listing
  obtain ⟨memory, loaded, block⟩ := same (by decide)
  obtain ⟨errors, error, he, -⟩ := refused (by decide)
  refine ⟨listing, ⟨memory, loaded, block, ?_⟩, errors, error, he⟩
  rw [Memory.run_writeBlock, if_neg (by decide), if_neg (by decide)] at block
  rw [← (EStateM.Result.ok.inj block).2]
  decide +kernel

end ByteMachine.Image
