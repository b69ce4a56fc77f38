import TraceReplay.Output.File

/-!
# Writing record by record

A stream is written as its records come in.  Once it has ended, the file holds the text of all of
them together, and the number of them is what the task gives back.
-/

namespace TraceReplay

/-! ## Bytes -/

theorem toList_byteArray_loop (bytes : ByteArray) (k : Nat) (done : List UInt8) :
    ByteArray.toList.loop bytes k done = done.reverse ++ bytes.data.toList.drop k := by
  fun_induction ByteArray.toList.loop bytes k done with
  | case1 k done hlt ih =>
    have hget : bytes.get! k = bytes.data[k] := getElem!_pos bytes.data k hlt
    have hdrop : bytes.data.toList.drop k = bytes.data[k] :: bytes.data.toList.drop (k + 1) :=
      List.drop_eq_getElem_cons (by simpa using hlt)
    rw [ih, hdrop, hget]
    simp
  | case2 k done hge =>
    rw [List.drop_eq_nil_of_le (by simpa using Nat.le_of_not_lt hge), List.append_nil]

theorem utf8Bytes_eq (s : String) : utf8Bytes s = s.toList.flatMap String.utf8EncodeChar := by
  rw [utf8Bytes, ByteArray.toList, toList_byteArray_loop]
  change s.toByteArray.data.toList = _
  rw [← String.utf8Encode_toList]
  exact List.toList_data_toByteArray

theorem utf8Bytes_append (s t : String) : utf8Bytes (s ++ t) = utf8Bytes s ++ utf8Bytes t := by
  simp [utf8Bytes_eq]

theorem utf8Bytes_empty : utf8Bytes "" = [] := by
  simp [utf8Bytes_eq]

/-- Texts are told apart by their bytes. -/
theorem utf8Bytes_inj {s t : String} (heq : utf8Bytes s = utf8Bytes t) : s = t := by
  rw [← String.toByteArray_inj]
  rw [utf8Bytes, utf8Bytes, ByteArray.toList, ByteArray.toList, toList_byteArray_loop,
    toList_byteArray_loop] at heq
  exact ByteArray.ext (Array.toList_inj.mp heq)

/-! ## The task -/

/-- What a task has written: the records it has taken in and what they left in its file. -/
structure Writer where
  written : Nat
  file : Bytes

namespace Writer

variable {header : List String}

def start : Writer := ⟨0, []⟩

def write (w : Writer) (bytes : Bytes) : Writer := ⟨w.written + 1, w.file ++ bytes⟩

/-- One record of a table; the header comes with the first. -/
def writeRow (header : List String) (w : Writer) (row : List String) : Writer :=
  let line := String.ofList (Table.writeRow row)
  w.write <| utf8Bytes <|
    if w.written = 0 then String.ofList (Table.writeRow header) ++ line else line

def writeLine (w : Writer) (value : Json) : Writer := w.write (Lines.writeLine value)

/-- A table that is written row by row, until there are no more. -/
def table (header : List String) (rows : List (List String)) : Writer :=
  rows.foldl (writeRow header) start

/-- A file of lines that is written one by one, until there are no more. -/
def lines (values : List Json) : Writer := values.foldl writeLine start

theorem foldl_writeRow (rows : List (List String)) {w : Writer} (hlater : w.written ≠ 0) :
    rows.foldl (writeRow header) w =
      ⟨w.written + rows.length, w.file ++ utf8Bytes (.ofList (rows.flatMap Table.writeRow))⟩ := by
  induction rows generalizing w with
  | nil => simp [utf8Bytes_empty]
  | cons row rows ih =>
    rw [List.foldl_cons, writeRow, if_neg hlater, ih (Nat.succ_ne_zero _), List.flatMap_cons,
      String.ofList_append, utf8Bytes_append, List.length_cons]
    simp only [write, List.append_assoc, mk.injEq, and_true]
    omega

/-- The file of a table holds its text. -/
theorem table_eq (header : List String) (rows : List (List String)) :
    table header rows = ⟨rows.length, utf8Bytes (Table.write header rows)⟩ := by
  cases rows with
  | nil =>
    change start = ⟨0, utf8Bytes ""⟩
    rw [utf8Bytes_empty, start]
  | cons row rows =>
    have hwritten : (writeRow header start row).written ≠ 0 := Nat.succ_ne_zero _
    rw [table, List.foldl_cons, foldl_writeRow rows hwritten]
    simp [writeRow, write, start, Table.write, utf8Bytes_append, String.ofList_append,
      Nat.add_comm]

/-- The file of lines holds their text. -/
theorem lines_eq (values : List Json) : lines values = ⟨values.length, Lines.write values⟩ := by
  have hfoldl (w : Writer) : values.foldl writeLine w =
      ⟨w.written + values.length, w.file ++ Lines.write values⟩ := by
    induction values generalizing w with
    | nil => simp [Lines.write]
    | cons value values ih =>
      have hlines : Lines.write (value :: values) = Lines.writeLine value ++ Lines.write values :=
        List.flatMap_cons
      rw [List.foldl_cons, ih, writeLine, List.length_cons, hlines]
      simp only [write, List.append_assoc, mk.injEq, and_true]
      omega
  rw [lines, hfoldl]
  simp [start]

end Writer
end TraceReplay
