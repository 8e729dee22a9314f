import Mathlib.Data.List.Forall2
import Mathlib.Logic.Relation
import ByteMachine.Proofs.Image.Listing

/-!
# The layout of program texts

The outcome of loading depends on a text only through the words of its significant lines and the
numbers of these lines. Line ends, blanks, comments and the words on other lines are layout: a text
can be edited in all of them and is still loaded to the same memory, or refused for the same faults.
Lines without a byte may even be put in or taken out, which shifts the numbers in the faults.

* `content?`, `contents`: what a line and a text say; `bytes`, `reports`: what is made of that.
* **`load_eq_of_contents`**: texts that say the same are loaded alike.
* `LineEdit`, `Edit`: changes of the layout; **`content?_eq_of_edit`**, **`contents_eq_of_edit`**:
  they do not change what is said.
* `EditedLine`, `Moved`: texts that differ by whole lines; **`forall₂_reports`**: the faults of one
  are those of the other at their new places.
* **`outcome_edited`**: the layout does not matter.
-/

namespace ByteMachine.Image

/-! ## What a text says -/

/-- **What a line says**: its word, if it should stand for a byte. -/
def content? (line : List Char) : Option (List Char) :=
  if Significant line then some (word line) else none

/-- What the lines of a text say, in order. -/
def contents (text : List Char) : List (Option (List Char)) := (text.splitOn '\n').map content?

/-- The word denotes a byte. -/
def Denotes (word : List Char) : Prop := IsBinary word ∧ binaryNumber word ≤ 255

instance (word : List Char) : Decidable (Denotes word) := inferInstanceAs (Decidable (_ ∧ _))

/-- The byte that a line stands for if this is what it says. -/
def byte? : Option (List Char) → Option UInt8
  | none => none
  | some word => if Denotes word then some (UInt8.ofNat (binaryNumber word)) else none

/-- The bytes of a text that says this. -/
def bytes (said : List (Option (List Char))) : List UInt8 := said.filterMap byte?

/-- The fault of a line that says this, after `taken` bytes. -/
def fault? (size taken : Nat) : Option (List Char) → Option LineFault
  | none => none
  | some word =>
    if ¬ Denotes word then some (.invalidLiteral (String.ofList word))
    else if size ≤ taken then some (.invalidAddress size)
    else none

/-- What is reported of a text that says this, where `taken` bytes came before and its first line
has this number. -/
def reports (size taken number : Nat) : List (Option (List Char)) → List LineError
  | [] => []
  | content :: said => ((fault? size taken content).map (LineError.mk number)).toList ++
      reports size (taken + (byte? content).toList.length) (number + 1) said

theorem content?_of_significant {line : List Char} (h : Significant line) :
    content? line = some (word line) :=
  if_pos h

theorem content?_of_plain {line : List Char} (h : ¬ Significant line) : content? line = none :=
  if_neg h

theorem content?_chomp (line : List Char) : content? (chomp line) = content? line := by
  rw [content?, content?, word_chomp]
  exact if_congr (significant_chomp_iff line) rfl rfl

theorem content?_concat_cr (line : List Char) : content? (line ++ ['\r']) = content? line := by
  rw [← content?_chomp, chomp_concat]

theorem Row.fault?_eq (size taken : Nat) (row : Row) :
    row.fault? size taken = Image.fault? size taken (content? row.line) := by
  rw [Row.fault?, content?]
  by_cases hs : Significant row.line
  · rw [if_pos hs, if_neg (not_not_intro hs)]
    rfl
  · rw [if_neg hs, if_pos hs]
    rfl

theorem stored_singleton_eq (row : Row) : stored [row] = (byte? (content? row.line)).toList := by
  rw [stored_singleton, content?]
  by_cases hs : Significant row.line
  · rw [if_pos hs, byte?]
    by_cases hv : Valid row.line
    · rw [if_pos ⟨hs, hv⟩, if_pos (show Denotes _ from hv)]
      rfl
    · rw [if_neg fun hc => hv hc.2, if_neg (show ¬ Denotes _ from hv)]
      rfl
  · rw [if_neg hs, if_neg fun hc => hs hc.1]
    rfl

theorem rowsAfter_cons (before piece : List Char) (rest : List (List Char)) :
    ∃ line, content? line = content? piece ∧
      rowsAfter before (piece :: rest) =
        ⟨before, line⟩ :: rowsAfter (before ++ piece ++ ['\n']) rest := by
  cases rest with
  | nil => exact ⟨piece, rfl, rfl⟩
  | cons next rest => exact ⟨chomp piece, content?_chomp piece, rfl⟩

theorem stored_rowsAfter (before : List Char) (pieces : List (List Char)) :
    stored (rowsAfter before pieces) = bytes (pieces.map content?) := by
  induction pieces generalizing before with
  | nil => rfl
  | cons piece rest ih =>
    obtain ⟨line, hl, hr⟩ := rowsAfter_cons before piece rest
    rw [hr, ← List.singleton_append, stored_append, ih, stored_singleton_eq, hl, List.map_cons,
      bytes, bytes, List.filterMap_cons]
    cases byte? (content? piece) <;> rfl

theorem faultsAfter_rowsAfter {size : Nat} {pieces : List (List Char)}
    (single : ∀ piece ∈ pieces, '\n' ∉ piece) (done : List Row) (before : List Char) :
    faultsAfter size done (rowsAfter before pieces) =
      reports size (stored done).length (before.count '\n' + 1) (pieces.map content?) := by
  induction pieces generalizing done before with
  | nil => rfl
  | cons piece rest ih =>
    obtain ⟨hp, hrest⟩ := List.forall_mem_cons.mp single
    obtain ⟨line, hl, hr⟩ := rowsAfter_cons before piece rest
    have hn : (before ++ piece ++ ['\n']).count '\n' = before.count '\n' + 1 := by
      rw [List.count_append, List.count_append, List.count_eq_zero.mpr hp,
        List.count_singleton_self]
    rw [hr, faultsAfter, ih hrest, hn, stored_append, List.length_append, stored_singleton_eq, hl,
      Row.errors, Row.fault?_eq, hl]
    rfl

theorem stored_rows_eq (text : List Char) : stored (rows text) = bytes (contents text) :=
  stored_rowsAfter _ _

theorem faults_eq_reports (size : Nat) (text : String) :
    faults size text = reports size 0 1 (contents text.toList) :=
  faultsAfter_rowsAfter (fun _ => not_mem_of_mem_splitOn) [] []

section

variable {size : Nat} {text text' : String}

/-- **Texts that say the same are loaded alike**, up to the records that are logged. -/
theorem load_eq_of_contents (h : contents text'.toList = contents text.toList)
    (memory : Memory size) : load text' memory = load text memory := by
  rw [load_eq_reached, load_eq_reached, faults_eq_reports, faults_eq_reports, h, Loading.reached,
    Loading.reached, stored_rows_eq, stored_rows_eq, h]

theorem outcome_eq_reports (text : String) (memory : Memory size) :
    (load text memory).outcome =
      if reports size 0 1 (contents text.toList) = [] then
        .ok (memory.overlay 0 (bytes (contents text.toList)))
      else .error (reports size 0 1 (contents text.toList)) := by
  rw [outcome_load, faults_eq_reports, stored_rows_eq]

end

/-! ## Texts from lines -/

theorem contents_line {line : List Char} (h : '\n' ∉ line) : contents line = [content? line] := by
  rw [contents, List.splitOn_eq_singleton h]
  rfl

theorem contents_cons {line : List Char} (h : '\n' ∉ line) (text : List Char) :
    contents (line ++ '\n' :: text) = content? line :: contents text := by
  rw [contents, List.splitOn_append_cons_self_of_not_mem h]
  rfl

/-- **Induction on the lines of a text.** -/
theorem lines_induction {motive : List Char → Prop}
    (last : ∀ line, '\n' ∉ line → motive line)
    (cons : ∀ line text, '\n' ∉ line → motive text → motive (line ++ '\n' :: text))
    (text : List Char) : motive text := by
  have pieces : ∀ pieces : List (List Char), (∀ piece ∈ pieces, '\n' ∉ piece) →
      motive (['\n'].intercalate pieces) := by
    intro pieces single
    induction pieces with
    | nil => exact last [] List.not_mem_nil
    | cons piece rest ih =>
      obtain ⟨hp, hrest⟩ := List.forall_mem_cons.mp single
      cases rest with
      | nil => simpa [List.intercalate] using last piece hp
      | cons next rest => simpa [List.intercalate] using cons piece _ hp (ih hrest)
  have whole : ['\n'].intercalate (text.splitOn '\n') = text := List.intercalate_splitOn '\n'
  rw [← whole]
  exact pieces _ fun _ => not_mem_of_mem_splitOn

theorem contents_append (text more : List Char) :
    contents (text ++ '\n' :: more) = contents text ++ contents more := by
  induction text using lines_induction with
  | last line h => rw [contents_cons h, contents_line h, List.singleton_append]
  | cons line text h ih =>
    rw [List.append_assoc, List.cons_append, contents_cons h, ih, contents_cons h, List.cons_append]

/-- The text that these lines make up. -/
def unlines (lines : List (List Char)) : List Char := ['\n'].intercalate lines

theorem unlines_cons (line : List Char) {lines : List (List Char)} (h : lines ≠ []) :
    unlines (line :: lines) = line ++ '\n' :: unlines lines := by
  obtain ⟨next, rest, rfl⟩ := List.exists_cons_of_ne_nil h
  simp [unlines, List.intercalate]

theorem contents_unlines {lines : List (List Char)} (h : lines ≠ []) :
    contents (unlines lines) = lines.flatMap contents := by
  induction lines with
  | nil => exact absurd rfl h
  | cons line rest ih =>
    by_cases hr : rest = []
    · subst hr
      simp [unlines, List.intercalate]
    · rw [unlines_cons line hr, contents_append, ih hr, List.flatMap_cons]

/-! ## Changes of the layout -/

/-- **One change of the layout of a line**, without its end. -/
inductive LineEdit : List Char → List Char → Prop
  /-- Other blanks before the comment or the end of a significant line. -/
  | blanks {code old new comment : List Char} (significant : Significant code) (bare : '#' ∉ code)
      (blank : ∀ c ∈ old ++ new, isBlank c = true)
      (remark : comment = [] ∨ comment.head? = some '#') :
      LineEdit (code ++ old ++ comment) (code ++ new ++ comment)
  /-- Another comment on a significant line, or one where none was, or none any more. -/
  | comment {code old new : List Char} (significant : Significant code) (bare : '#' ∉ code)
      (remarks : ∀ comment ∈ [old, new], comment = [] ∨ comment.head? = some '#') :
      LineEdit (code ++ old) (code ++ new)
  /-- Another line without a byte. -/
  | other {old new : List Char} (plain : ¬ Significant old) (still : ¬ Significant new) :
      LineEdit old new

/-- The text with a carriage return before every line feed. -/
def withReturns (text : List Char) : List Char :=
  text.flatMap fun c => if c = '\n' then ['\r', '\n'] else [c]

/-- **One change of the layout of a text.** -/
inductive Edit : List Char → List Char → Prop
  /-- Other line ends. If there were carriage returns at them, there are more now. -/
  | returns (text : List Char) : Edit text (withReturns text)
  /-- A change of one line. -/
  | line {old new : List Char} (above below : List (List Char)) (edit : LineEdit old new)
      (single : ∀ line ∈ [old, new], '\n' ∉ line) :
      Edit (unlines (above ++ old :: below)) (unlines (above ++ new :: below))

theorem significant_append {code : List Char} (h : Significant code) (rest : List Char) :
    Significant (code ++ rest) := by
  cases code with
  | nil => simp [Significant] at h
  | cons c code => exact h

/-- **A change of the layout does not change what a line says.** -/
theorem content?_eq_of_edit {old new : List Char} (edit : LineEdit old new) :
    content? new = content? old := by
  cases edit with
  | @blanks code old new comment significant bare blank remark =>
    obtain ⟨ho, hn⟩ := List.forall_mem_append.mp blank
    have said : ∀ blanks, content? (code ++ blanks ++ comment) =
        some (word (code ++ blanks ++ comment)) := fun blanks =>
      content?_of_significant (significant_append (significant_append significant _) _)
    rw [said, said, word_append bare hn remark, word_append bare ho remark]
  | @comment code old new significant bare remarks =>
    have said : ∀ comment ∈ [old, new],
        content? (code ++ comment) = some (code.rdropWhile isBlank) := by
      intro comment hm
      have := word_append bare (List.forall_mem_nil _) (remarks comment hm)
      rw [List.append_nil] at this
      rw [content?_of_significant (significant_append significant _), this]
    rw [said new (by simp), said old (by simp)]
  | other plain still => rw [content?_of_plain plain, content?_of_plain still]

theorem withReturns_line {line : List Char} (h : '\n' ∉ line) : withReturns line = line := by
  induction line with
  | nil => rfl
  | cons c line ih =>
    obtain ⟨hc, hl⟩ := not_or.mp (mt List.mem_cons.mpr h)
    rw [withReturns, List.flatMap_cons, if_neg (Ne.symm hc), ← withReturns, ih hl,
      List.singleton_append]

theorem withReturns_cons {line : List Char} (h : '\n' ∉ line) (text : List Char) :
    withReturns (line ++ '\n' :: text) = line ++ ['\r'] ++ '\n' :: withReturns text := by
  rw [withReturns, List.flatMap_append, ← withReturns, withReturns_line h, List.append_assoc]
  rfl

theorem contents_withReturns (text : List Char) : contents (withReturns text) = contents text := by
  induction text using lines_induction with
  | last line h => rw [withReturns_line h]
  | cons line text h ih =>
    have hr : '\n' ∉ line ++ ['\r'] := by simpa using h
    rw [withReturns_cons h, contents_cons hr, content?_concat_cr, ih, contents_cons h]

/-- **A change of the layout does not change what a text says.** -/
theorem contents_eq_of_edit {text text' : List Char} (edit : Edit text text') :
    contents text' = contents text := by
  cases edit with
  | returns => exact contents_withReturns text
  | @line old new above below edit single =>
    have ho := contents_line (single old (by simp))
    have hn := contents_line (single new (by simp))
    rw [contents_unlines (by simp), contents_unlines (by simp), List.flatMap_append,
      List.flatMap_append, List.flatMap_cons, List.flatMap_cons, ho, hn, content?_eq_of_edit edit]

theorem contents_eq_of_edits {text text' : List Char} (edits : Relation.EqvGen Edit text text') :
    contents text' = contents text :=
  (eq_equivalence.comap contents).eqvGen_iff.mp
    (edits.symm.mono fun _ _ edit => (contents_eq_of_edit edit).symm)

theorem content?_eq_of_edits {old new : List Char} (edits : Relation.EqvGen LineEdit old new) :
    content? new = content? old :=
  (eq_equivalence.comap content?).eqvGen_iff.mp
    (edits.symm.mono fun _ _ edit => (content?_eq_of_edit edit).symm)

/-! ## Lines that come and go -/

/-- A line of one text, of another, or of both. -/
inductive EditedLine
  /-- A line of both texts, of which the layout may have changed. -/
  | kept (old new : List Char)
  | inserted (line : List Char)
  | deleted (line : List Char)

namespace EditedLine

/-- The line as it was. -/
def old? : EditedLine → Option (List Char)
  | kept old _ => some old
  | inserted _ => none
  | deleted line => some line

/-- The line as it is now. -/
def new? : EditedLine → Option (List Char)
  | kept _ new => some new
  | inserted line => some line
  | deleted _ => none

def isInserted : EditedLine → Bool
  | inserted _ => true
  | _ => false

def isDeleted : EditedLine → Bool
  | deleted _ => true
  | _ => false

/-- It is a matter of layout: no byte comes with the line and none goes. -/
inductive IsLayout : EditedLine → Prop
  | kept {old new : List Char} (edits : Relation.EqvGen LineEdit old new)
      (single : ∀ line ∈ [old, new], '\n' ∉ line) : IsLayout (kept old new)
  | inserted {line : List Char} (plain : ¬ Significant line) (single : '\n' ∉ line) :
      IsLayout (inserted line)
  | deleted {line : List Char} (plain : ¬ Significant line) (single : '\n' ∉ line) :
      IsLayout (deleted line)

theorem IsLayout.single_of_eq {line : EditedLine} (h : line.IsLayout) {text : List Char}
    (ht : line.old? = some text ∨ line.new? = some text) : '\n' ∉ text := by
  cases h with
  | kept edits single => exact single text (by simpa [old?, new?, eq_comm] using ht)
  | inserted plain single | deleted plain single =>
    obtain rfl : _ = text := by simpa [old?, new?] using ht
    exact single

theorem length_new (lines : List EditedLine) :
    (lines.filterMap new?).length + lines.countP isDeleted =
      (lines.filterMap old?).length + lines.countP isInserted := by
  induction lines with
  | nil => rfl
  | cons line lines ih =>
    cases line <;> simp [List.filterMap_cons, List.countP_cons, old?, new?, isInserted,
      isDeleted] <;> omega

end EditedLine

/-- **The same fault of the same line**, which may have another number now: as many more as lines
have been put in above it, and as many fewer as lines have been taken out. -/
structure Moved (lines : List EditedLine) (error error' : LineError) : Prop where
  fault : error'.fault = error.fault
  place : ∃ above old new below, lines = above ++ .kept old new :: below ∧
    error.line = (above.filterMap EditedLine.old?).length + 1 ∧
    error'.line + above.countP EditedLine.isDeleted =
      error.line + above.countP EditedLine.isInserted

theorem bytes_new {lines : List EditedLine} (layout : ∀ line ∈ lines, line.IsLayout) :
    bytes ((lines.filterMap EditedLine.new?).map content?) =
      bytes ((lines.filterMap EditedLine.old?).map content?) := by
  unfold bytes
  induction lines with
  | nil => rfl
  | cons line lines ih =>
    obtain ⟨hl, hrest⟩ := List.forall_mem_cons.mp layout
    have ih := ih hrest
    cases hl with
    | @kept old new edits single =>
      have hc := content?_eq_of_edits edits
      simp only [List.filterMap_cons, EditedLine.old?, EditedLine.new?, List.map_cons, hc]
      rw [ih]
    | inserted plain single | deleted plain single =>
      simpa [List.filterMap_cons, EditedLine.old?, EditedLine.new?, content?_of_plain plain, byte?]
        using ih

/-- **Lines that come and go move the faults of the others**, and do nothing else to them. -/
theorem forall₂_reports (size : Nat) {lines : List EditedLine}
    (layout : ∀ line ∈ lines, line.IsLayout) (above : List EditedLine) (taken : Nat) :
    List.Forall₂ (Moved (above ++ lines))
      (reports size taken ((above.filterMap EditedLine.old?).length + 1)
        ((lines.filterMap EditedLine.old?).map content?))
      (reports size taken ((above.filterMap EditedLine.new?).length + 1)
        ((lines.filterMap EditedLine.new?).map content?)) := by
  -- `above` are the lines gone by, from which both numbers are counted
  induction lines generalizing above taken with
  | nil => exact .nil
  | cons line lines ih =>
    obtain ⟨hl, hrest⟩ := List.forall_mem_cons.mp layout
    have counts := EditedLine.length_new above
    have ih := ih hrest (above ++ [line])
    rw [List.append_assoc, List.singleton_append, List.filterMap_append, List.filterMap_append,
      List.length_append, List.length_append] at ih
    cases hl with
    | @kept old new edits single =>
      have hc := content?_eq_of_edits edits
      simp only [List.filterMap_cons, EditedLine.old?, EditedLine.new?, List.map_cons, reports, hc]
      refine List.rel_append ?_ (ih _)
      cases fault? size taken (content? old) with
      | none => exact .nil
      | some fault =>
        refine .cons ⟨rfl, above, old, new, lines, rfl, rfl, ?_⟩ .nil
        dsimp only
        omega
    | inserted plain single =>
      simpa [List.filterMap_cons, EditedLine.old?, EditedLine.new?, reports, fault?, byte?,
        content?_of_plain plain] using ih taken
    | deleted plain single =>
      simpa [List.filterMap_cons, EditedLine.old?, EditedLine.new?, reports, fault?, byte?,
        content?_of_plain plain] using ih taken

/-! ## The layout does not matter -/

/-- What a text says, line by line. No lines at all make the same text as one empty line, so that
this holds for readings that do not tell the two apart. -/
theorem read_contents_unlines {α : Type} (read : List (Option (List Char)) → α)
    (empty : read [none] = read []) {lines : List (List Char)}
    (single : ∀ line ∈ lines, '\n' ∉ line) :
    read (contents (unlines lines)) = read (lines.map content?) := by
  by_cases h : lines = []
  · subst h
    have nothing : contents (unlines []) = [none] := contents_line List.not_mem_nil
    rw [nothing, empty, List.map_nil]
  · have pieces : lines.flatMap contents = lines.flatMap (pure ∘ content?) :=
      List.flatMap_congr fun line hl => contents_line (single line hl)
    rw [contents_unlines h, pieces, List.flatMap_pure_eq_map]

/-- **The layout of a text does not matter.** Any number of changes leaves the outcome as it is, the
numbers in the faults included. If lines without a byte are put in or taken out besides, then either
the same memory is loaded, or the same faults are reported, each at the new place of its line. -/
theorem outcome_edited {size : Nat} (memory : Memory size) :
    (∀ text text' : String, Relation.EqvGen Edit text.toList text'.toList →
      (load text' memory).outcome = (load text memory).outcome) ∧
    ∀ (lines : List EditedLine) (text text' : String), (∀ line ∈ lines, line.IsLayout) →
      text.toList = unlines (lines.filterMap EditedLine.old?) →
      text'.toList = unlines (lines.filterMap EditedLine.new?) →
      (∃ loaded, (load text memory).outcome = .ok loaded ∧
        (load text' memory).outcome = .ok loaded) ∨
      ∃ errors errors', (load text memory).outcome = .error errors ∧
        (load text' memory).outcome = .error errors' ∧
        List.Forall₂ (Moved lines) errors errors' := by
  refine ⟨fun text text' edits => ?_, fun lines text text' layout ho hn => ?_⟩
  · rw [load_eq_of_contents (contents_eq_of_edits edits)]
  · have single_old : ∀ line ∈ lines.filterMap EditedLine.old?, '\n' ∉ line := fun line hm =>
      have ⟨edited, he, ho⟩ := List.mem_filterMap.mp hm
      (layout edited he).single_of_eq (.inl ho)
    have single_new : ∀ line ∈ lines.filterMap EditedLine.new?, '\n' ∉ line := fun line hm =>
      have ⟨edited, he, hn⟩ := List.mem_filterMap.mp hm
      (layout edited he).single_of_eq (.inr hn)
    have stored := bytes_new layout
    rw [← read_contents_unlines bytes rfl single_old, ← read_contents_unlines bytes rfl single_new,
      ← ho, ← hn] at stored
    have moved : List.Forall₂ (Moved lines) (reports size 0 1 _) (reports size 0 1 _) :=
      forall₂_reports size layout [] 0
    rw [← read_contents_unlines (reports size 0 1) rfl single_old,
      ← read_contents_unlines (reports size 0 1) rfl single_new, ← ho, ← hn] at moved
    rw [outcome_eq_reports, outcome_eq_reports, stored]
    have none_iff := moved.length_eq
    by_cases hf : reports size 0 1 (contents text.toList) = []
    · rw [hf, List.length_nil, eq_comm, List.length_eq_zero_iff] at none_iff
      rw [if_pos hf, if_pos none_iff]
      exact .inl ⟨_, rfl, rfl⟩
    · rw [if_neg hf, if_neg fun hc => hf (List.length_eq_zero_iff.mp (by rw [none_iff, hc]; rfl))]
      exact .inr ⟨_, _, rfl, rfl, moved⟩

/-- A byte with a comment and three digits that are not binary, in a text that gets other blanks and
line ends, and in one that loses the comment and gets two lines for one. -/
theorem outcome_edited_two :
    let text := "1 # one\nx\n102"
    let lines : List EditedLine := [.inserted "; image".toList, .kept "1 # one".toList "1 ".toList,
      .deleted "x".toList, .inserted [], .kept "102".toList "102".toList]
    (load text (Memory.zero 2)).outcome = .error [⟨3, .invalidLiteral "102"⟩] ∧
      (load "1\t# one\r\nx\r\n102" (Memory.zero 2)).outcome =
        .error [⟨3, .invalidLiteral "102"⟩] ∧
      ∃ errors, (load "; image\n1 \n\n102" (Memory.zero 2)).outcome = .error errors ∧
        List.Forall₂ (Moved lines) [⟨3, .invalidLiteral "102"⟩] errors := by
  intro text lines
  have refused : (load text (Memory.zero 2)).outcome = .error [⟨3, .invalidLiteral "102"⟩] := by
    decide +kernel
  obtain ⟨edited, moved⟩ := outcome_edited (Memory.zero 2)
  have blanks : LineEdit ("1".toList ++ [' '] ++ "# one".toList)
      ("1".toList ++ ['\t'] ++ "# one".toList) :=
    .blanks (by decide) (by decide)
      (List.forall_mem_cons.mpr ⟨by decide, List.forall_mem_singleton.mpr (by decide)⟩) (.inr rfl)
  have comment : LineEdit ("1 ".toList ++ "# one".toList) ("1 ".toList ++ []) :=
    .comment (by decide) (by decide) (by decide)
  have edits : Relation.EqvGen Edit text.toList "1\t# one\r\nx\r\n102".toList := by
    have spaced : Edit text.toList "1\t# one\nx\n102".toList := by
      have line := Edit.line [] ["x".toList, "102".toList] blanks (by decide)
      rwa [show unlines _ = text.toList by decide +kernel,
        show unlines _ = "1\t# one\nx\n102".toList by decide +kernel] at line
    have returned := Edit.returns "1\t# one\nx\n102".toList
    rw [show withReturns _ = "1\t# one\r\nx\r\n102".toList by decide +kernel] at returned
    exact .trans _ _ _ (.rel _ _ spaced) (.rel _ _ returned)
  have layout : ∀ line ∈ lines, line.IsLayout := by
    simp only [lines, List.forall_mem_cons]
    exact ⟨.inserted (by decide) (by decide), .kept (.rel _ _ comment) (by decide),
      .deleted (by decide) (by decide), .inserted (by decide) (by decide),
      .kept (.refl _) (by decide), List.forall_mem_nil _⟩
  refine ⟨refused, (edited _ _ edits).trans refused, ?_⟩
  obtain ⟨loaded, accepted, -⟩ | ⟨errors, errors', he, he', hm⟩ :=
    moved lines text "; image\n1 \n\n102" layout (by decide +kernel) (by decide +kernel)
  · rw [refused] at accepted
    cases accepted
  · obtain rfl := Except.error.inj (refused.symm.trans he)
    exact ⟨errors', he', hm⟩

end ByteMachine.Image
