import Mathlib.Data.Nat.Digits.Defs
import Mathlib.Data.List.DropRight
import Mathlib.Tactic.Ring
import ByteMachine.Image.File

/-!
# The format of program images

What a text says as a program image, written down without regard to how it is read: its rows, which
of them stand for a byte and for which one, and the fault that each of the others is reported with.
The reader of lines and the reader of literals are shown to follow this format.

* `rows`, `Row.number`: the lines of a text with all that comes before them, and their numbers;
  **`standsIn_of_mem_rows`**: they stand where they say.
* `Significant`, `word`: lines that should stand for a byte, and the part of a line that names it;
  **`word_eq_iff`**: what that part is.
* `Valid`, `lineByte`: lines that do stand for a byte.
* `significant`, `stored`: the significant lines and the bytes of some rows.
* `Row.fault?`, `faultsAfter`: the faults of rows and what is reported of them.
* **`mem_faultsAfter_iff`**, `pairwise_faults`, **`faultsAfter_eq_nil_iff`**: which faults there are,
  in which order, and when there are none.
* **`foldl_lines`**, **`byte?_literal`**: the lines and the bytes that are read.
-/

namespace ByteMachine.Image

/-! ## Rows -/

/-- A line of a text, along with all that comes before it. -/
structure Row where
  before : List Char
  line : List Char
deriving DecidableEq

/-- The number of a row: one more than there are line feeds before it. -/
def Row.number (row : Row) : Nat := row.before.count '\n' + 1

/-- A piece of text without one carriage return at its end. -/
def chomp (piece : List Char) : List Char :=
  if piece.getLast? = some '\r' then piece.dropLast else piece

/-- The rows of a text of which `before` is already known, from the pieces between its line feeds. A
carriage return belongs to a line end only if a line feed follows, so the last piece keeps it. -/
def rowsAfter (before : List Char) : List (List Char) → List Row
  | [] => []
  | [last] => [⟨before, last⟩]
  | piece :: next :: rest =>
    ⟨before, chomp piece⟩ :: rowsAfter (before ++ piece ++ ['\n']) (next :: rest)

/-- **The rows of a text.** What follows the last line feed is one of them even if it is empty. -/
def rows (text : List Char) : List Row := rowsAfter [] (text.splitOn '\n')

theorem not_mem_of_mem_splitOn {text piece : List Char} (h : piece ∈ text.splitOn '\n') :
    '\n' ∉ piece := by
  induction text generalizing piece with
  | nil =>
    obtain rfl := List.mem_singleton.mp (List.splitOn_nil '\n' ▸ h)
    exact List.not_mem_nil
  | cons c text ih =>
    obtain ⟨first, rest, heq⟩ := List.exists_cons_of_ne_nil (List.splitOn_ne_nil '\n' text)
    rw [heq] at ih
    rw [List.splitOn_cons_eq_if_modifyHead, heq] at h
    simp only [beq_iff_eq] at h
    split_ifs at h with hc
    · obtain rfl | h := List.mem_cons.mp h
      · exact List.not_mem_nil
      · exact ih h
    · obtain rfl | h := List.mem_cons.mp h
      · rw [List.mem_cons, not_or]
        exact ⟨Ne.symm hc, ih List.mem_cons_self⟩
      · exact ih (List.mem_cons_of_mem _ h)

/-- The row stands in the text: its line begins at the start or after a line feed, and goes on to
the next line end or to the end of the text. -/
structure Row.StandsIn (row : Row) (text : List Char) : Prop where
  start : row.before = [] ∨ row.before.getLast? = some '\n'
  line : '\n' ∉ row.line
  stop : ∃ ending rest, text = row.before ++ row.line ++ ending ++ rest ∧
    (ending = ['\n'] ∨ ending = ['\r', '\n'] ∨ ending = [] ∧ rest = [])

theorem chomp_append (piece : List Char) :
    ∃ ending, piece ++ ['\n'] = chomp piece ++ ending ∧
      (ending = ['\n'] ∨ ending = ['\r', '\n']) := by
  unfold chomp
  split_ifs with h
  · refine ⟨['\r', '\n'], ?_, .inr rfl⟩
    obtain ⟨front, rfl⟩ := List.getLast?_eq_some_iff.mp h
    simp
  · exact ⟨['\n'], rfl, .inl rfl⟩

theorem mem_of_mem_chomp {piece : List Char} {c : Char} (h : c ∈ chomp piece) : c ∈ piece := by
  unfold chomp at h
  split_ifs at h
  · exact (List.dropLast_sublist _).subset h
  · exact h

theorem standsIn_of_mem_rowsAfter {before : List Char} {pieces : List (List Char)} {row : Row}
    (hb : before = [] ∨ before.getLast? = some '\n') (hp : ∀ piece ∈ pieces, '\n' ∉ piece)
    (h : row ∈ rowsAfter before pieces) : row.StandsIn (before ++ ['\n'].intercalate pieces) := by
  induction before, pieces using rowsAfter.induct with
  | case1 before => cases h
  | case2 before last =>
    obtain rfl := List.mem_singleton.mp h
    exact ⟨hb, hp _ List.mem_cons_self, [], [], by simp [List.intercalate], .inr (.inr ⟨rfl, rfl⟩)⟩
  | case3 before piece next rest ih =>
    have heq : before ++ ['\n'].intercalate (piece :: next :: rest) =
        before ++ piece ++ ['\n'] ++ ['\n'].intercalate (next :: rest) := by
      simp [List.intercalate]
    rw [heq]
    obtain rfl | h := List.mem_cons.mp h
    · obtain ⟨ending, he, hend⟩ := chomp_append piece
      refine ⟨hb, fun hc => hp _ List.mem_cons_self (mem_of_mem_chomp hc), ending,
        ['\n'].intercalate (next :: rest), ?_, hend.imp_right .inl⟩
      rw [List.append_assoc before, he]
      simp
    · refine ih (.inr ?_) (fun piece hm => hp piece (List.mem_cons_of_mem _ hm)) h
      simp

/-- **Rows stand where they say.** -/
theorem standsIn_of_mem_rows {text : List Char} {row : Row} (h : row ∈ rows text) :
    row.StandsIn text := by
  have := standsIn_of_mem_rowsAfter (.inl rfl) (fun _ => not_mem_of_mem_splitOn) h
  rwa [List.nil_append, List.intercalate_splitOn] at this

theorem count_lt_number {before : List Char} {pieces : List (List Char)} {row : Row}
    (h : row ∈ rowsAfter before pieces) : before.count '\n' < row.number := by
  induction before, pieces using rowsAfter.induct with
  | case1 before => cases h
  | case2 before last =>
    obtain rfl := List.mem_singleton.mp h
    exact Nat.lt_succ_self _
  | case3 before piece next rest ih =>
    obtain rfl | h := List.mem_cons.mp h
    · exact Nat.lt_succ_self _
    · refine Nat.lt_of_le_of_lt ?_ (ih h)
      rw [List.count_append, List.count_append, Nat.add_assoc]
      exact Nat.le_add_right _ _

theorem pairwise_rowsAfter (before : List Char) (pieces : List (List Char)) :
    (rowsAfter before pieces).Pairwise fun a b => a.number < b.number := by
  induction before, pieces using rowsAfter.induct with
  | case1 before => exact List.Pairwise.nil
  | case2 before last => exact List.pairwise_singleton _ _
  | case3 before piece next rest ih =>
    refine ih.cons fun row hr => ?_
    have h := count_lt_number hr
    rw [List.count_append, List.count_singleton_self] at h
    have : before.count '\n' ≤ (before ++ piece).count '\n' :=
      (List.sublist_append_left _ _).count_le _
    unfold Row.number at h ⊢
    dsimp only
    omega

/-! ## Bytes -/

/-- The line should stand for a byte: its first character is a binary digit. -/
def Significant (line : List Char) : Prop := line.head? = some '0' ∨ line.head? = some '1'

/-- **The word of a line**: what comes before the first `#`, without the blanks at its end. -/
def word (line : List Char) : List Char := ((line.splitOn '#').headD []).rdropWhile isBlank

/-- There is nothing but binary digits. -/
def IsBinary (digits : List Char) : Prop := ∀ c ∈ digits, c = '0' ∨ c = '1'

-- found by name, since there may be a decision procedure for statements on all characters in scope
instance (digits : List Char) : Decidable (IsBinary digits) := List.decidableBAll _ digits

/-- The number that a row of binary digits denotes. -/
def binaryNumber (digits : List Char) : Nat :=
  Nat.ofDigits 2 (digits.reverse.map fun c => if c = '1' then 1 else 0)

/-- The word of the line denotes a byte: there is nothing but binary digits in it, and their number
is not too large. -/
def Valid (line : List Char) : Prop :=
  IsBinary (word line) ∧ binaryNumber (word line) ≤ 255

instance (line : List Char) : Decidable (Significant line) := inferInstanceAs (Decidable (_ ∨ _))
instance (line : List Char) : Decidable (Valid line) := inferInstanceAs (Decidable (_ ∧ _))

/-- The byte that a valid line stands for. -/
def lineByte (line : List Char) : UInt8 := UInt8.ofNat (binaryNumber (word line))

/-- The row stands for a byte. -/
def Row.Carries (row : Row) : Prop := Significant row.line ∧ Valid row.line

instance (row : Row) : Decidable row.Carries := inferInstanceAs (Decidable (_ ∧ _))

/-- **The bytes of an image**, one for each row that carries one. -/
def stored (rows : List Row) : List UInt8 :=
  (rows.filter (·.Carries)).map fun row => lineByte row.line

theorem stored_append (rows more : List Row) :
    stored (rows ++ more) = stored rows ++ stored more := by
  rw [stored, List.filter_append, List.map_append, stored, stored]

theorem length_stored (rows : List Row) : (stored rows).length = rows.countP (·.Carries) := by
  rw [stored, List.length_map, List.countP_eq_length_filter]

theorem stored_singleton (row : Row) :
    stored [row] = if row.Carries then [lineByte row.line] else [] := by
  unfold stored
  split_ifs with h <;> simp [h]

/-- The significant lines of some rows. -/
def significant (rows : List Row) : List (List Char) :=
  (rows.map (·.line)).filter (Significant ·)

theorem stored_eq_map {rows : List Row} (h : ∀ line ∈ significant rows, Valid line) :
    stored rows = (significant rows).map lineByte := by
  have hf : rows.filter (·.Carries) = rows.filter (Significant ·.line) := by
    refine List.filter_congr fun row hr => decide_eq_decide.mpr ⟨fun hc => hc.1, fun hs => ⟨hs, ?_⟩⟩
    exact h _ (List.mem_filter.mpr ⟨List.mem_map_of_mem hr, decide_eq_true hs⟩)
  rw [stored, hf, significant, List.filter_map, List.map_map]
  rfl

/-! ## Words -/

theorem rdropWhile_append_blanks {blanks : List Char} (blank : ∀ c ∈ blanks, isBlank c = true)
    (code : List Char) : (code ++ blanks).rdropWhile isBlank = code.rdropWhile isBlank := by
  rw [List.rdropWhile, List.reverse_append, List.dropWhile_append_of_pos (by simpa using blank)]
  rfl

/-- **Blanks and comments do not matter** to the word of a line. -/
theorem word_append {code blanks comment : List Char} (bare : '#' ∉ code)
    (blank : ∀ c ∈ blanks, isBlank c = true) (remark : comment = [] ∨ comment.head? = some '#') :
    word (code ++ blanks ++ comment) = code.rdropWhile isBlank := by
  have bare' : '#' ∉ code ++ blanks := by
    rw [List.mem_append, not_or]
    exact ⟨bare, fun hc => absurd (blank '#' hc) (by decide)⟩
  have piece : ((code ++ blanks ++ comment).splitOn '#').headD [] = code ++ blanks := by
    cases comment with
    | nil =>
      rw [List.append_nil, List.splitOn_eq_singleton bare']
      rfl
    | cons c rest =>
      obtain rfl : c = '#' := by simpa using remark
      rw [List.splitOn_append_cons_self_of_not_mem bare']
      rfl
  rw [word, piece, rdropWhile_append_blanks blank]

theorem exists_eq_takeWhile_append (line : List Char) :
    ∃ comment, line = (line.takeWhile fun c => c ≠ '#') ++ comment ∧
      (comment = [] ∨ comment.head? = some '#') := by
  refine ⟨line.dropWhile fun c => c ≠ '#', List.takeWhile_append_dropWhile.symm, ?_⟩
  cases hd : line.dropWhile fun c => c ≠ '#' with
  | nil => exact .inl rfl
  | cons c rest =>
    have := List.head?_dropWhile_not (fun c => c ≠ '#') line
    simp_all

theorem word_eq_rdropWhile (line : List Char) :
    word line = (line.takeWhile fun c => c ≠ '#').rdropWhile isBlank := by
  obtain ⟨comment, hl, remark⟩ := exists_eq_takeWhile_append line
  have bare : '#' ∉ line.takeWhile fun c => c ≠ '#' := fun hc => by
    simpa using List.mem_takeWhile_imp hc
  have cut := word_append bare (List.forall_mem_nil _) remark
  rwa [List.append_nil, ← hl] at cut

/-- **What the word of a line is.** Nothing follows it but blanks and a comment, and it has neither a
comment nor a blank at its end. -/
theorem word_eq_iff {line code : List Char} :
    word line = code ↔ ∃ blanks comment, line = code ++ blanks ++ comment ∧
      (∀ c ∈ code.getLast?, isBlank c = false) ∧ (∀ c ∈ blanks, isBlank c = true) ∧
      '#' ∉ code ++ blanks ∧ (comment = [] ∨ comment.head? = some '#') := by
  constructor
  · rintro rfl
    obtain ⟨comment, hl, remark⟩ := exists_eq_takeWhile_append line
    have parts := List.rdropWhile_append_rtakeWhile (p := isBlank)
      (l := line.takeWhile fun c => c ≠ '#')
    rw [← word_eq_rdropWhile] at parts
    refine ⟨(line.takeWhile fun c => c ≠ '#').rtakeWhile isBlank, comment, by rwa [parts],
      fun c hc => ?_, fun c => List.mem_rtakeWhile_imp, fun hm => ?_, remark⟩
    · obtain ⟨hne, rfl⟩ := List.mem_getLast?_eq_getLast hc
      refine eq_false_of_ne_true ?_
      simp only [word_eq_rdropWhile]
      exact List.rdropWhile_last_not isBlank _ (by rwa [← word_eq_rdropWhile])
    · rw [parts] at hm
      simpa using List.mem_takeWhile_imp hm
  · rintro ⟨blanks, comment, rfl, last, blank, bare, remark⟩
    rw [word_append (fun hc => bare (List.mem_append_left _ hc)) blank remark]
    refine List.rdropWhile_eq_self_iff.mpr fun hne => ?_
    rw [last _ (List.getLast?_eq_some_getLast hne)]
    exact Bool.false_ne_true

theorem word_ne_nil {line : List Char} (h : Significant line) : word line ≠ [] := by
  intro hn
  obtain ⟨blanks, comment, rfl, -, blank, -, remark⟩ := word_eq_iff.mp hn
  cases blanks with
  | nil =>
    obtain rfl | remark := remark
    · simp [Significant] at h
    · rw [List.append_nil, List.nil_append, Significant, remark] at h
      exact absurd h (by decide)
  | cons c blanks =>
    have hc := blank c List.mem_cons_self
    obtain h | h := h <;> obtain rfl := Option.some.inj h <;> exact absurd hc (by decide)

/-! ## Faults -/

/-- **The fault of a row** that `taken` bytes come before: a significant line without a byte, or a
byte without an address in a memory of `size` bytes. -/
def Row.fault? (size taken : Nat) (row : Row) : Option LineFault :=
  if ¬ Significant row.line then none
  else if ¬ Valid row.line then some (.invalidLiteral (String.ofList (word row.line)))
  else if size ≤ taken then some (.invalidAddress size)
  else none

/-- What is reported of a row: its fault, if it has one, and its number. -/
def Row.errors (size taken : Nat) (row : Row) : List LineError :=
  ((row.fault? size taken).map (LineError.mk row.number)).toList

theorem Row.mem_errors_iff {size taken : Nat} {row : Row} {error : LineError} :
    error ∈ row.errors size taken ↔
      error.line = row.number ∧ row.fault? size taken = some error.fault := by
  rw [Row.errors, Option.mem_toList, Option.map_eq_some_iff]
  constructor
  · rintro ⟨fault, hf, rfl⟩
    exact ⟨rfl, hf⟩
  · rintro ⟨hl, hf⟩
    exact ⟨error.fault, hf, by rw [← hl]⟩

theorem Row.errors_eq_nil_iff {size taken : Nat} {row : Row} :
    row.errors size taken = [] ↔ row.fault? size taken = none := by
  rw [Row.errors, Option.toList_eq_nil_iff, Option.map_eq_none_iff]

/-- What is reported of rows that come after the rows `before`. -/
def faultsAfter (size : Nat) (before : List Row) : List Row → List LineError
  | [] => []
  | row :: rest => row.errors size (stored before).length ++ faultsAfter size (before ++ [row]) rest

/-- **A fault is reported for a row exactly if the row has it**, after the rows before it. -/
theorem mem_faultsAfter_iff {size : Nat} {done rows : List Row} {error : LineError} :
    error ∈ faultsAfter size done rows ↔
      ∃ before row after, rows = before ++ row :: after ∧ error.line = row.number ∧
        row.fault? size (stored (done ++ before)).length = some error.fault := by
  induction rows generalizing done with
  | nil => simp [faultsAfter]
  | cons row rest ih =>
    rw [faultsAfter, List.mem_append, Row.mem_errors_iff, ih]
    constructor
    · rintro (⟨hl, hf⟩ | ⟨before, row', after, rfl, hl, hf⟩)
      · exact ⟨[], row, rest, rfl, hl, by rwa [List.append_nil]⟩
      · refine ⟨row :: before, row', after, rfl, hl, ?_⟩
        rwa [List.append_assoc] at hf
    · rintro ⟨before, row', after, heq, hl, hf⟩
      cases before with
      | nil =>
        obtain ⟨rfl, rfl⟩ := List.cons.inj heq
        rw [List.append_nil] at hf
        exact .inl ⟨hl, hf⟩
      | cons row'' before =>
        obtain ⟨rfl, rfl⟩ := List.cons.inj heq
        refine .inr ⟨before, row', after, rfl, hl, ?_⟩
        rwa [List.append_assoc]

/-- **There are no faults** if every significant line is valid and there is room for all of them. -/
theorem faultsAfter_eq_nil_iff {size : Nat} {done rows : List Row} :
    faultsAfter size done rows = [] ↔ (∀ line ∈ significant rows, Valid line) ∧
      (significant rows = [] ∨ (stored done).length + (significant rows).length ≤ size) := by
  induction rows generalizing done with
  | nil => simp [faultsAfter, significant]
  | cons row rest ih =>
    rw [faultsAfter, List.append_eq_nil_iff, Row.errors_eq_nil_iff, ih, stored_append,
      stored_singleton, Row.fault?]
    by_cases hs : Significant row.line
    · have hc : significant (row :: rest) = row.line :: significant rest := by
        simp [significant, hs]
      rw [hc, List.forall_mem_cons]
      by_cases hv : Valid row.line
      · have room : (stored done).length < size ∧ (significant rest = [] ∨
            (stored done).length + 1 + (significant rest).length ≤ size) ↔
              (stored done).length + ((significant rest).length + 1) ≤ size := by
          rw [← List.length_eq_zero_iff]
          omega
        have hcarries : row.Carries := ⟨hs, hv⟩
        simpa [hs, hv, hcarries, ← room] using and_left_comm
      · simp [hs, hv]
    · have hc : significant (row :: rest) = significant rest := by
        simp [significant, hs]
      simp [hs, hc, Row.Carries]

theorem sublist_faultsAfter (size : Nat) (done rows : List Row) :
    ((faultsAfter size done rows).map (·.line)).Sublist (rows.map (·.number)) := by
  induction rows generalizing done with
  | nil => exact List.Sublist.refl _
  | cons row rest ih =>
    rw [faultsAfter, List.map_append, Row.errors]
    cases row.fault? size (stored done).length with
    | none => exact (ih _).cons _
    | some fault => exact (ih _).cons_cons _

theorem pairwise_faults (size : Nat) (text : List Char) :
    (faultsAfter size [] (rows text)).Pairwise fun a b => a.line < b.line := by
  have h : ((rows text).map (·.number)).Pairwise (· < ·) := by
    rw [List.pairwise_map]
    exact pairwise_rowsAfter [] _
  have hs := h.sublist (sublist_faultsAfter size [] (rows text))
  rwa [List.pairwise_map] at hs

/-! ## The lines that are read -/

/-- The lines that pieces between line feeds are read as. -/
def marked : List (List Char) → List Line
  | [] => []
  | [last] => if last = [] then [] else [⟨last, false⟩]
  | piece :: next :: rest => ⟨piece, true⟩ :: marked (next :: rest)

theorem split_eq_marked (text : List Char) : Line.split text = marked (text.splitOn '\n') := by
  induction text with
  | nil => rfl
  | cons c text ih =>
    change Line.cons c (Line.split text) = _
    rw [ih, List.splitOn_cons_eq_if_modifyHead]
    obtain ⟨piece, rest, h⟩ := List.exists_cons_of_ne_nil (List.splitOn_ne_nil '\n' text)
    rw [h]
    simp only [beq_iff_eq]
    split_ifs with hc
    · rw [Line.cons.eq_def]
      simp [marked, hc]
    · cases rest with
      | nil =>
        cases piece <;> simp [marked, Line.cons, hc]
      | cons next rest => simp [marked, Line.cons, hc]

/-- Going through lines with their numbers is going through rows, as long as there is nothing to do
for an empty line. -/
theorem foldl_marked {β : Type} {f : β → Nat → List Char → β} (skip : ∀ s number, f s number [] = s)
    (before : List Char) {pieces : List (List Char)} (h : ∀ piece ∈ pieces, '\n' ∉ piece) (s : β) :
    (((marked pieces).map Line.body).zipIdx (before.count '\n' + 1)).foldl
        (fun s (line, number) => f s number line) s =
      (rowsAfter before pieces).foldl (fun s row => f s row.number row.line) s := by
  induction before, pieces using rowsAfter.induct generalizing s with
  | case1 before => rfl
  | case2 before last =>
    by_cases hl : last = []
    · subst hl
      exact (skip s _).symm
    · simp [marked, hl, rowsAfter, Line.body, Row.number]
  | case3 before piece next rest ih =>
    have hb : Line.body ⟨piece, true⟩ = chomp piece := by simp [Line.body, chomp]
    have hn : (before ++ piece ++ ['\n']).count '\n' = before.count '\n' + 1 := by
      rw [List.count_append, List.count_append, List.count_singleton_self,
        List.count_eq_zero_of_not_mem (h piece List.mem_cons_self), Nat.add_zero]
    have ih := ih (fun piece hp => h piece (List.mem_cons_of_mem _ hp))
    rw [hn] at ih
    rw [marked, rowsAfter, List.map_cons, List.zipIdx_cons, List.foldl_cons, List.foldl_cons, hb,
      ih]
    rfl

/-- **Going through the lines of a text** is going through its rows. -/
theorem foldl_lines {β : Type} {f : β → Nat → List Char → β} (skip : ∀ s number, f s number [] = s)
    (text : List Char) (s : β) :
    ((lines text).zipIdx 1).foldl (fun s (line, number) => f s number line) s =
      (rows text).foldl (fun s row => f s row.number row.line) s := by
  rw [lines, split_eq_marked]
  exact foldl_marked skip [] (fun _ => not_mem_of_mem_splitOn) s

/-! ## The literals that are read -/

theorem digit?_eq (c : Char) :
    Binary.digit? c =
      if c = '0' ∨ c = '1' then some (if c = '1' then 1 else 0) else none := by
  unfold Binary.digit?
  split_ifs <;> simp_all

theorem binaryNumber_cons (c : Char) (digits : List Char) :
    binaryNumber (c :: digits) =
      2 ^ digits.length * (if c = '1' then 1 else 0) + binaryNumber digits := by
  rw [binaryNumber, List.reverse_cons, List.map_append, Nat.ofDigits_append, List.map_singleton,
    Nat.ofDigits_singleton, List.length_map, List.length_reverse, Nat.add_comm, binaryNumber]

theorem isBinary_cons_iff {c : Char} {digits : List Char} :
    IsBinary (c :: digits) ↔ (c = '0' ∨ c = '1') ∧ IsBinary digits :=
  List.forall_mem_cons

theorem valueFrom?_eq (high : Nat) (digits : List Char) :
    Binary.valueFrom? high digits =
      if IsBinary digits then some (2 ^ digits.length * high + binaryNumber digits) else none := by
  induction digits generalizing high with
  | nil => simp [Binary.valueFrom?, IsBinary, binaryNumber]
  | cons c digits ih =>
    rw [Binary.valueFrom?, digit?_eq]
    by_cases hc : c = '0' ∨ c = '1'
    · rw [if_pos hc, Option.bind_some, ih, List.length_cons, binaryNumber_cons]
      refine if_congr ?_ (congrArg some (by ring)) rfl
      rw [isBinary_cons_iff, and_iff_right hc]
    · rw [if_neg hc, Option.bind_none, if_neg fun h => hc (isBinary_cons_iff.mp h).1]

theorem isSignificant_iff (line : List Char) : isSignificant line = true ↔ Significant line := by
  cases line with
  | nil => simp [isSignificant, Significant]
  | cons c rest => simp [isSignificant, Significant]

theorem literal_eq_word (line : List Char) : literal line = word line :=
  (word_eq_rdropWhile line).symm

/-- **The byte that is read from a significant line.** -/
theorem byte?_literal {line : List Char} (h : Significant line) :
    Binary.byte? (literal line) = if Valid line then some (lineByte line) else none := by
  rw [literal_eq_word, Binary.byte?, if_neg (by simpa using word_ne_nil h), valueFrom?_eq,
    Nat.mul_zero, Nat.zero_add]
  by_cases hd : IsBinary (word line)
  · rw [if_pos hd, Option.bind_some]
    refine if_congr ?_ rfl rfl
    exact ⟨fun hn => ⟨hd, Nat.le_of_lt_succ hn⟩, fun hv => Nat.lt_succ_of_le hv.2⟩
  · rw [if_neg hd, Option.bind_none, if_neg fun hv => hd hv.1]

end ByteMachine.Image
