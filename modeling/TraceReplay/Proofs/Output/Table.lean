import TraceReplay.Output.Table
import Mathlib.Data.List.Basic
import Mathlib.Data.List.TakeWhile

/-!
# Tables are told apart

The grammar of RFC 4180: rows of fields with commas between them, each row ended by a line break
that the last may lack.  A field is bare, without commas, quotes and line breaks, or escaped, in
quotes with the quotes inside doubled.  A text has at most one reading in this grammar, whatever
is in its fields, and the text of a table is read as its header and its rows.
-/

namespace TraceReplay.Table

/-! ## The grammar -/

/-- What stands between the quotes of an escaped field. -/
inductive Escaped : List Char → List Char → Prop where
  | nil : Escaped [] []
  | char {c : Char} {text field : List Char} (hquote : c ≠ '"') (hrest : Escaped text field) :
    Escaped (c :: text) (c :: field)
  | quote {text field : List Char} (hrest : Escaped text field) :
    Escaped ('"' :: '"' :: text) ('"' :: field)

/-- A character of a bare field. -/
def TextData (c : Char) : Prop := c ≠ ',' ∧ c ≠ '"' ∧ c ≠ '\n' ∧ c ≠ '\r'

instance (c : Char) : Decidable (TextData c) :=
  inferInstanceAs (Decidable (_ ∧ _))

inductive Field : List Char → List Char → Prop where
  | bare {field : List Char} (hfield : ∀ c ∈ field, TextData c) : Field field field
  | escaped {text field : List Char} (hfield : Escaped text field) :
    Field ('"' :: (text ++ ['"'])) field

inductive Row : List Char → List (List Char) → Prop where
  | one {text field : List Char} (hfield : Field text field) : Row text [field]
  | cons {text other field : List Char} {fields : List (List Char)} (hfield : Field text field)
    (hfields : Row other fields) : Row (text ++ ',' :: other) (field :: fields)

/-- RFC 4180 asks for both characters; the line feed alone is read in the same way. -/
inductive LineBreak : List Char → Prop where
  | lf : LineBreak ['\n']
  | crlf : LineBreak ['\r', '\n']

/-- Only a row with something in it can go without a line break, as the last one. -/
inductive Rows : List Char → List (List (List Char)) → Prop where
  | nil : Rows [] []
  | last {text : List Char} {fields : List (List Char)} (hne : text ≠ [])
    (hfields : Row text fields) : Rows text [fields]
  | cons {text lineBreak other : List Char} {fields : List (List Char)}
    {rows : List (List (List Char))} (hfields : Row text fields) (hbreak : LineBreak lineBreak)
    (hrows : Rows other rows) : Rows (text ++ (lineBreak ++ other)) (fields :: rows)

/-- The text is a table of the rows, the header among them. -/
def Holds (text : String) (rows : List (List String)) : Prop :=
  Rows text.toList (rows.map (·.map String.toList))

variable {text other rest tail field field' : List Char} {fields fields' : List (List Char)}
  {rows rows' : List (List (List Char))}

/-! ## One reading -/

/-- What follows a row. -/
def EndsRow (rest : List Char) : Prop := ∀ c ∈ rest.head?, c = '\n' ∨ c = '\r'

/-- What follows a field. -/
def EndsField (rest : List Char) : Prop := ∀ c ∈ rest.head?, ¬TextData c ∧ c ≠ '"'

theorem EndsRow.endsField (hrest : EndsRow rest) : EndsField rest := by
  intro c hc
  rcases hrest c hc with rfl | rfl <;> simp [TextData]

theorem endsField_comma : EndsField (',' :: rest) := by
  intro c hc
  obtain rfl := Option.some.inj hc
  simp [TextData]

theorem LineBreak.endsRow (hbreak : LineBreak text) : EndsRow (text ++ rest) := by
  intro c hc
  cases hbreak <;> obtain rfl := Option.some.inj hc <;> simp

theorem Escaped.unique (htext : Escaped text field) (hother : Escaped other field')
    (hrest : EndsField rest) (htail : EndsField tail)
    (heq : text ++ '"' :: rest = other ++ '"' :: tail) : field = field' ∧ rest = tail := by
  induction htext generalizing other field' with
  | nil =>
    cases hother with
    | nil => exact ⟨rfl, (List.cons.inj heq).2⟩
    | char hquote _ => exact absurd (List.cons.inj heq).1.symm hquote
    | quote _ =>
      obtain rfl := (List.cons.inj heq).2
      exact absurd rfl (hrest '"' rfl).2
  | char hquote _ ih =>
    cases hother with
    | nil => exact absurd (List.cons.inj heq).1 hquote
    | char _ hothers =>
      obtain ⟨rfl, hsame⟩ := List.cons.inj heq
      obtain ⟨rfl, rfl⟩ := ih hothers hsame
      exact ⟨rfl, rfl⟩
    | quote _ => exact absurd (List.cons.inj heq).1 hquote
  | quote _ ih =>
    cases hother with
    | nil =>
      obtain rfl := (List.cons.inj heq).2
      exact absurd rfl (htail '"' rfl).2
    | char hquote _ => exact absurd (List.cons.inj heq).1.symm hquote
    | quote hothers =>
      obtain ⟨rfl, rfl⟩ := ih hothers (List.cons.inj (List.cons.inj heq).2).2
      exact ⟨rfl, rfl⟩

/-- A bare field is as long as its characters are text. -/
theorem span_textData (hfield : ∀ c ∈ field, TextData c) (hrest : EndsField rest) :
    (field ++ rest).takeWhile (TextData ·) = field ∧
      (field ++ rest).dropWhile (TextData ·) = rest := by
  rw [List.takeWhile_append_of_pos (by simpa using hfield),
    List.dropWhile_append_of_pos (by simpa using hfield)]
  cases rest with
  | nil => simp
  | cons c rest => simp [(hrest c rfl).1]

theorem not_bare_of_quote (hfield : ∀ c ∈ field, TextData c) (hrest : EndsField rest) :
    field ++ rest ≠ '"' :: other := by
  intro heq
  cases field with
  | nil => exact (hrest '"' (by rw [← List.nil_append rest, heq]; rfl)).2 rfl
  | cons c field => exact (hfield c List.mem_cons_self).2.1 (List.cons.inj heq).1

theorem Field.unique (htext : Field text field) (hother : Field other field')
    (hrest : EndsField rest) (htail : EndsField tail) (heq : text ++ rest = other ++ tail) :
    field = field' ∧ rest = tail := by
  cases htext with
  | bare hfield =>
    cases hother with
    | bare hfield' =>
      obtain ⟨htake, hdrop⟩ := span_textData hfield hrest
      obtain ⟨htake', hdrop'⟩ := span_textData hfield' htail
      rw [heq] at htake hdrop
      exact ⟨htake.symm.trans htake', hdrop.symm.trans hdrop'⟩
    | escaped _ => exact absurd heq (not_bare_of_quote hfield hrest)
  | escaped hfield =>
    cases hother with
    | bare hfield' => exact absurd heq.symm (not_bare_of_quote hfield' htail)
    | escaped hfield' =>
      refine hfield.unique hfield' hrest htail ?_
      simpa using heq

theorem Row.unique (htext : Row text fields) (hother : Row other fields') (hrest : EndsRow rest)
    (htail : EndsRow tail) (heq : text ++ rest = other ++ tail) :
    fields = fields' ∧ rest = tail := by
  have hcomma {rest : List Char} (hrest : EndsRow (',' :: rest)) : False := by
    simpa using hrest ',' rfl
  induction htext generalizing other fields' with
  | one hfield =>
    cases hother with
    | one hfield' =>
      obtain ⟨rfl, rfl⟩ := hfield.unique hfield' hrest.endsField htail.endsField heq
      exact ⟨rfl, rfl⟩
    | cons hfield' _ =>
      rw [List.append_assoc] at heq
      obtain ⟨-, rfl⟩ := hfield.unique hfield' hrest.endsField endsField_comma heq
      exact (hcomma hrest).elim
  | cons hfield _ ih =>
    rw [List.append_assoc] at heq
    cases hother with
    | one hfield' =>
      obtain ⟨-, rfl⟩ := hfield.unique hfield' endsField_comma htail.endsField heq
      exact (hcomma htail).elim
    | cons hfield' hfields' =>
      rw [List.append_assoc] at heq
      obtain ⟨rfl, hrests⟩ := hfield.unique hfield' endsField_comma endsField_comma heq
      obtain ⟨rfl, rfl⟩ := ih hfields' (List.cons.inj hrests).2
      exact ⟨rfl, rfl⟩

theorem LineBreak.unique (htext : LineBreak text) (hother : LineBreak other)
    (heq : text ++ rest = other ++ tail) : rest = tail := by
  cases htext <;> cases hother <;> simp_all

theorem LineBreak.ne_nil (hbreak : LineBreak text) : text ++ rest ≠ [] := by
  cases hbreak <;> simp

/-- A text has one reading at most. -/
theorem Rows.unique (hrows : Rows text rows) (hrows' : Rows other rows') (heq : text = other) :
    rows = rows' := by
  have hend : EndsRow [] := fun _ hc => absurd hc (by simp)
  induction hrows generalizing other rows' with
  | nil =>
    cases hrows' with
    | nil => rfl
    | last hne _ => exact absurd heq.symm hne
    | cons _ hbreak _ => exact absurd heq.symm (List.append_ne_nil_of_right_ne_nil _ hbreak.ne_nil)
  | @last line _ hne hfields =>
    cases hrows' with
    | nil => exact absurd heq hne
    | last _ hfields' =>
      obtain ⟨rfl, -⟩ := hfields.unique hfields' hend hend (congrArg (· ++ []) heq)
      rfl
    | cons hfields' hbreak _ =>
      obtain ⟨-, hrest⟩ := hfields.unique hfields' hend hbreak.endsRow
        ((List.append_nil line).trans heq)
      exact absurd hrest.symm hbreak.ne_nil
  | cons hfields hbreak _ ih =>
    cases hrows' with
    | nil => exact absurd heq (List.append_ne_nil_of_right_ne_nil _ hbreak.ne_nil)
    | last hne hfields' =>
      obtain ⟨-, hrest⟩ := hfields.unique hfields' hbreak.endsRow hend
        (heq.trans (List.append_nil other).symm)
      exact absurd hrest hbreak.ne_nil
    | cons hfields' hbreak' hrows' =>
      obtain ⟨rfl, hrests⟩ := hfields.unique hfields' hbreak.endsRow hbreak'.endsRow heq
      obtain rfl := ih hrows' (hbreak.unique hbreak' hrests)
      rfl

/-- A text is a table of one list of rows at most. -/
theorem Holds.unique {text : String} {rows rows' : List (List String)} (hrows : Holds text rows)
    (hrows' : Holds text rows') : rows = rows' := by
  have htoList : (fun row : List String => row.map String.toList).Injective :=
    List.map_injective_iff.mpr fun _ _ => String.toList_injective
  exact List.map_injective_iff.mpr htoList (Rows.unique hrows hrows' rfl)

/-! ## Written tables -/

theorem escaped_doubleQuotes (field : List Char) : Escaped (doubleQuotes field) field := by
  induction field with
  | nil => exact .nil
  | cons c field ih =>
    rw [doubleQuotes]
    split
    next hquote =>
      subst hquote
      exact .quote ih
    next hquote => exact .char hquote ih

theorem field_writeField (field : List Char) : Field (writeField field) field := by
  rw [writeField]
  split
  next => exact .escaped (escaped_doubleQuotes field)
  next hplain =>
    refine .bare fun c hc => ?_
    simp only [needsQuotes, List.any_eq_true, Bool.or_eq_true, decide_eq_true_eq, not_exists,
      not_and, not_or] at hplain
    obtain ⟨⟨⟨hcomma, hquote⟩, hlf⟩, hcr⟩ := hplain c hc
    exact ⟨hcomma, hquote, hlf, hcr⟩

theorem row_writeFields (hne : fields ≠ []) : Row (writeFields fields) fields := by
  induction fields with
  | nil => exact absurd rfl hne
  | cons field fields ih =>
    cases fields with
    | nil => exact .one (field_writeField field)
    | cons next fields => exact .cons (field_writeField field) (ih (List.cons_ne_nil _ _))

theorem rows_writeRow {row : List String} {rows : List (List (List Char))} (hne : row ≠ [])
    (hrows : Rows other rows) : Rows (writeRow row ++ other) (row.map String.toList :: rows) := by
  rw [writeRow, List.append_assoc]
  exact .cons (row_writeFields (by simpa using hne)) .lf hrows

variable {header : List String} {table table' : List (List String)}

/-- The rows that are read from the text of a table. -/
def contents (header : List String) (table : List (List String)) : List (List String) :=
  if table = [] then [] else header :: table

/-- A text is a table of its header and its rows, unless it has no rows: then it is empty. -/
theorem holds_write (hheader : header ≠ []) (htable : ∀ row ∈ table, row ≠ []) :
    Holds (write header table) (contents header table) := by
  have hrows : Rows (table.flatMap writeRow) (table.map (·.map String.toList)) := by
    induction table with
    | nil => exact .nil
    | cons row table ih =>
      exact rows_writeRow (htable row List.mem_cons_self)
        (ih fun row hrow => htable row (List.mem_cons_of_mem _ hrow))
  unfold Holds contents write
  cases table with
  | nil => simpa using Rows.nil
  | cons row table => simpa using rows_writeRow hheader hrows

theorem holds_write_iff (hheader : header ≠ []) (htable : ∀ row ∈ table, row ≠ []) :
    Holds (write header table) table' ↔ table' = contents header table := by
  constructor
  · intro hholds
    exact hholds.unique (holds_write hheader htable)
  · rintro rfl
    exact holds_write hheader htable

theorem contents_inj (heq : contents header table = contents header table') : table = table' := by
  cases table <;> cases table' <;> simp_all [contents]

/-- Tables with one header are told apart by their texts. -/
theorem write_inj (hheader : header ≠ []) (htable : ∀ row ∈ table, row ≠ [])
    (htable' : ∀ row ∈ table', row ≠ []) (heq : write header table = write header table') :
    table = table' := by
  have hholds := holds_write hheader htable
  rw [heq] at hholds
  exact contents_inj (hholds.unique (holds_write hheader htable'))

end TraceReplay.Table
