import Mathlib
import ByteMachine.Proofs.Hexadecimal
import ByteMachine.Proofs.Transcript

/-!
# Reading a dump

A dump of a memory goes to the log row by row, each row with the address of its first byte and at
most sixteen bytes. All bytes of the memory can be read off it again, and nothing else is in it.

* `IsRow`, `readRow?`, **`readRow?_of_isRow`**: rows as they are written, and read again.
* `Memory.row`, **`Memory.dump_eq_rows`**: the rows of a dump.
* **`Memory.flatMap_row`**: the rows one after the other are the memory.
* **`Memory.read_dump`**: what a dump consists of, and that nothing is lost in it.
-/

namespace ByteMachine

/-! ## Rows -/

/-- The field shows a byte with two digits. -/
def IsField (field : List Char) (byte : UInt8) : Prop :=
  Hex.IsUpper field byte.toNat ∧ field.length = 2

/-- **A row of a dump**: the address of the first byte and a colon, then for each byte a blank and two
digits. -/
def IsRow (row : List Char) (start : Nat) (bytes : List UInt8) : Prop :=
  ∃ label fields, row = label ++ ':' :: fields.flatMap (' ' :: ·) ∧ Hex.IsUpper label start ∧
    List.Forall₂ IsField fields bytes

/-- The address and the bytes that a row shows: the first word without the colon behind it, and all
other words. -/
def readRow? (row : String) : Option (Nat × List UInt8) :=
  match Log.words row.toList with
  | [] => none
  | label :: fields =>
    if label.getLast? = some ':' then do
      let start ← Hex.number? label.dropLast
      let bytes ← fields.mapM Hex.byte?
      pure (start, bytes)
    else none

/-- The fields that show some bytes. -/
def byteFields (bytes : List UInt8) : List (List Char) :=
  bytes.map fun byte => (Hex.upper byte.toNat).toList

theorem isField_byteFields (bytes : List UInt8) : List.Forall₂ IsField (byteFields bytes) bytes := by
  rw [byteFields, List.forall₂_map_left_iff, List.forall₂_same]
  exact fun byte _ => ⟨Hex.isUpper_upper _, Hex.length_upper byte⟩

theorem Hex.toList_fields (bytes : List UInt8) :
    (fields bytes).toList = (byteFields bytes).flatMap (' ' :: ·) := by
  simp [fields, byteFields, String.toList_join, List.flatMap_map]

section Fields

variable {fields : List (List Char)} {bytes : List UInt8}

theorem not_mem_of_mem_fields (h : List.Forall₂ IsField fields bytes) {c : Char}
    (hc : Hex.digit? c = none) : ∀ field ∈ fields, c ∉ field := by
  induction h with
  | nil => exact fun field hf => absurd hf List.not_mem_nil
  | cons shown _ ih => exact List.forall_mem_cons.mpr ⟨shown.1.not_mem hc, ih⟩

theorem mapM_byte?_fields (h : List.Forall₂ IsField fields bytes) :
    fields.mapM Hex.byte? = some bytes := by
  induction h with
  | nil => rfl
  | cons shown _ ih =>
    rw [List.mapM_cons, shown.1.byte?_eq shown.2, ih]
    rfl

end Fields

/-- **A row is read back.** -/
theorem readRow?_of_isRow {row : String} {start : Nat} {bytes : List UInt8}
    (h : IsRow row.toList start bytes) : readRow? row = some (start, bytes) := by
  obtain ⟨label, fields, hr, hl, hf⟩ := h
  have blank : ' ' ∉ label ++ [':'] := by
    simpa using hl.not_mem rfl
  have split : Log.words row.toList = (label ++ [':']) :: fields := by
    rw [← Log.words_flatMap blank (not_mem_of_mem_fields hf rfl), hr]
    simp
  rw [readRow?, split]
  simp [hl.reads, mapM_byte?_fields hf]

namespace Memory

variable {size : Nat} (memory : Memory size)

/-- The bytes of row number `i`. -/
def row (i : Nat) : List UInt8 := (memory.bytes.toList.drop (16 * i)).take 16

/-- All bytes that some records show. -/
def readDump? (records : List Log.Record) : Option (List UInt8) :=
  (records.mapM fun record => readRow? record.message).map fun rows => rows.flatMap Prod.snd

theorem zipIdx_chunks (bytes : List UInt8) (start : Nat) :
    (chunks bytes).zipIdx start =
      (List.range ((bytes.length + 15) / 16)).map fun i =>
        ((bytes.drop (16 * i)).take 16, start + i) := by
  induction bytes using chunks.induct generalizing start with
  | case1 => simp [chunks]
  | case2 byte rest ih =>
    have count : ((byte :: rest).length + 15) / 16 =
        (((byte :: rest).drop 16).length + 15) / 16 + 1 := by
      rw [List.length_drop, List.length_cons]
      omega
    rw [chunks, List.zipIdx_cons, ih, count, List.range_succ_eq_map, List.map_cons, List.map_map]
    congr 1
    refine List.map_congr_left fun i _ => ?_
    rw [Function.comp_apply, List.drop_drop]
    congr 1
    · rw [Nat.mul_succ, Nat.add_comm]
    · omega

/-- **Row by row is every sixteen bytes.** -/
theorem dump_eq_rows :
    memory.dump = (List.range ((size + 15) / 16)).map fun i => rowText i (memory.row i) := by
  rw [dump_eq_map, zipIdx_chunks, List.map_map, Vector.length_toList]
  refine List.map_congr_left fun i _ => ?_
  rw [Function.comp_apply, Nat.zero_add]
  rfl

theorem length_row (i : Nat) : (memory.row i).length = min 16 (size - 16 * i) := by
  simp [row]

theorem getElem?_row {i column : Nat} (h : column < 16) :
    (memory.row i)[column]? = memory.get? (16 * i + column) := by
  simp [row, h, get?]

/-- **The rows one after the other are the memory.** -/
theorem flatMap_row (k : Nat) :
    (List.range k).flatMap memory.row = memory.bytes.toList.take (16 * k) := by
  induction k with
  | zero => simp
  | succ k ih =>
    rw [List.range_succ, List.flatMap_append, ih, List.flatMap_singleton, row, Nat.mul_succ,
      List.take_add]

theorem isRow_dump (i : Nat) :
    IsRow (rowText i (memory.row i)).toList (16 * i) (memory.row i) := by
  refine ⟨(Hex.upper (16 * i)).toList, byteFields (memory.row i), ?_, Hex.isUpper_upper _,
    isField_byteFields _⟩
  simp [rowText_eq, Hex.toList_fields]

theorem length_dumpRecords : memory.dumpRecords.length = (size + 15) / 16 := by
  simp [dumpRecords, dump_eq_rows]

theorem getElem?_dumpRecords {i : Nat} {record : Log.Record}
    (h : memory.dumpRecords[i]? = some record) :
    i < (size + 15) / 16 ∧ record = CommandLine.rowRecord (rowText i (memory.row i)) := by
  obtain ⟨hi, hr⟩ := List.getElem?_eq_some_iff.mp h
  rw [length_dumpRecords] at hi
  refine ⟨hi, hr.symm.trans ?_⟩
  simp [dumpRecords, dump_eq_rows]

theorem mapM_readRow?_dumpRecords :
    memory.dumpRecords.mapM (fun record => readRow? record.message) =
      some ((List.range ((size + 15) / 16)).map fun i => (16 * i, memory.row i)) := by
  rw [dumpRecords, dump_eq_rows]
  generalize List.range ((size + 15) / 16) = numbers
  induction numbers with
  | nil => rfl
  | cons i numbers ih =>
    rw [List.map_cons, List.map_cons, List.mapM_cons, ih, CommandLine.rowRecord,
      readRow?_of_isRow (memory.isRow_dump i)]
    rfl

/-- **A dump is read back.** -/
theorem readDump?_dumpRecords : readDump? memory.dumpRecords = some memory.bytes.toList := by
  have enough : size ≤ 16 * ((size + 15) / 16) := by omega
  rw [readDump?, mapM_readRow?_dumpRecords, Option.map_some, List.flatMap_map]
  refine congrArg some ((memory.flatMap_row _).trans (List.take_of_length_le ?_))
  simpa using enough

/-- **A dump loses nothing.** It has a row for every sixteen bytes and one for those that are left,
each with the address of its first byte. All bytes are read back from it in order, so that different
memories of one size have different dumps. -/
theorem read_dump (memory : Memory size) :
    memory.dumpRecords.length = size ⌈/⌉ 16 ∧
    (∀ i record, memory.dumpRecords[i]? = some record →
      record.level = .debug ∧ ∃ bytes, IsRow record.message.toList (16 * i) bytes ∧
        readRow? record.message = some (16 * i, bytes) ∧
        (i + 1 < memory.dumpRecords.length → bytes.length = 16) ∧
        1 ≤ bytes.length ∧ bytes.length ≤ 16 ∧
        ∀ column byte, bytes[column]? = some byte → memory.get? (16 * i + column) = some byte) ∧
    readDump? memory.dumpRecords = some memory.bytes.toList ∧
    ∀ other : Memory size, memory.dumpRecords = other.dumpRecords ↔ memory = other := by
  refine ⟨?_, fun i record h => ?_, memory.readDump?_dumpRecords, fun other => ⟨fun h => ?_, ?_⟩⟩
  · rw [length_dumpRecords, Nat.ceilDiv_eq_add_pred_div]
    rfl
  · obtain ⟨hi, rfl⟩ := memory.getElem?_dumpRecords h
    have row := memory.isRow_dump i
    have count := memory.length_row i
    refine ⟨rfl, memory.row i, row, readRow?_of_isRow row, fun more => ?_, by omega, by omega,
      fun column byte hb => ?_⟩
    · rw [length_dumpRecords] at more
      omega
    · obtain ⟨hc, -⟩ := List.getElem?_eq_some_iff.mp hb
      rw [← memory.getElem?_row (by omega), hb]
  · have same := memory.readDump?_dumpRecords
    rw [h, readDump?_dumpRecords, Option.some.injEq] at same
    exact congrArg mk (Vector.toList_inj.mp same.symm)
  · rintro rfl
    rfl

example : dump ⟨Vector.ofFn fun i : Fin 17 => UInt8.ofNat (255 - i.val)⟩ =
    ["00: FF FE FD FC FB FA F9 F8 F7 F6 F5 F4 F3 F2 F1 F0", "10: EF"] := by
  decide +kernel

end Memory

end ByteMachine
