import TraceReplay.Proofs.Json.Text

/-!
# Written trees are read back

A tree whose numbers and strings are read back is read back itself from either of its layouts:
white space is skipped wherever a layout puts it, each value ends where the next comma or bracket
begins, and there is fuel for every value, because each of them is written with at least one byte.
-/

namespace TraceReplay.Json

open Decimal

variable {input rest gap closing : Bytes} {fuel level : Nat} {write : Json → Bytes}

/-! ## Trees that can be written -/

/-- The body of a string is read up to the quote after it. -/
def Closed (body : Bytes) : Prop :=
  ∀ rest, readBody (body ++ quote :: rest) = some (body, rest)

/-- Points are followed by digits, and strings end where they are closed. -/
inductive Writable : Json → Prop where
  | null : Writable .null
  | bool (b : Bool) : Writable (.bool b)
  | number {l : Literal} (hpoint : l.places ≠ some 0) : Writable (.number l)
  | string {body : Bytes} (hbody : Closed body) : Writable (.string body)
  | array {items : List Json} (hitems : ∀ item ∈ items, Writable item) : Writable (.array items)
  | object {members : List (Bytes × Json)} (hkeys : ∀ member ∈ members, Closed member.1)
    (hvalues : ∀ member ∈ members, Writable member.2) : Writable (.object members)

theorem closed_encodeText (s : String) : Closed (encodeText s) := readBody_encodeText s

/-! ## White space -/

/-- What a layout may put before a value. -/
def Blank (gap : Bytes) : Prop := ∀ b ∈ gap, isSpace b = true

theorem blank_nil : Blank [] := fun _ hb => absurd hb List.not_mem_nil

theorem blank_newline (level : Nat) : Blank (newline level) := by
  intro b hb
  rcases List.mem_cons.mp hb with rfl | hb
  · decide
  · rw [List.eq_of_mem_replicate hb]
    decide

theorem Blank.skipSpace (hgap : Blank gap) (input : Bytes) :
    skipSpace (gap ++ input) = skipSpace input :=
  List.dropWhile_append_of_pos hgap

theorem skipSpace_cons {b : UInt8} (hspace : isSpace b = false) :
    skipSpace (b :: input) = b :: input := by
  rw [skipSpace, List.dropWhile_cons_of_neg (by simp [hspace])]

/-- White space before a value is skipped. -/
theorem Blank.readValue (hgap : Blank gap) (input : Bytes) :
    readValue fuel (gap ++ input) = readValue fuel input := by
  cases fuel with
  | zero => rfl
  | succ fuel => rw [Json.readValue, Json.readValue, hgap.skipSpace]

theorem endsNumber_cons {b : UInt8} (hb : isDigit b = false ∧ b ≠ 0x2e ∧ b ≠ 0x65 ∧ b ≠ 0x45) :
    EndsNumber (b :: input) := by
  intro first hfirst
  obtain rfl := Option.some.inj hfirst
  exact hb

theorem Blank.endsNumber (hgap : Blank gap) (hinput : EndsNumber input) :
    EndsNumber (gap ++ input) := by
  cases gap with
  | nil => exact hinput
  | cons b gap =>
    refine endsNumber_cons ?_
    have hspace := hgap b List.mem_cons_self
    simp only [isSpace, Bool.or_eq_true, decide_eq_true_eq] at hspace
    rcases hspace with ((rfl | rfl) | rfl) | rfl <;> decide

theorem asciiBytes_words : asciiBytes "null" = [0x6e, 0x75, 0x6c, 0x6c] ∧
    asciiBytes "true" = [0x74, 0x72, 0x75, 0x65] ∧
    asciiBytes "false" = [0x66, 0x61, 0x6c, 0x73, 0x65] := by
  decide +kernel

/-- A minus sign and digits begin numbers only. -/
theorem begins_number {b : UInt8} (hbegins : b = 0x2d ∨ isDigit b = true) :
    isSpace b = false ∧ b ≠ 0x22 ∧ b ≠ 0x5b ∧ b ≠ 0x5d ∧ b ≠ 0x7b ∧ b ≠ 0x6e ∧ b ≠ 0x74 ∧
      b ≠ 0x66 := by
  rcases hbegins with rfl | hdigit
  · decide
  · have hne {other : UInt8} (hother : isDigit other = false) : b ≠ other := by
      rintro rfl
      exact absurd (hdigit.symm.trans hother) (by decide)
    have hspace : isSpace b = false := by
      simp [isSpace, hne (show isDigit 0x20 = false by decide),
        hne (show isDigit 0x0a = false by decide), hne (show isDigit 0x09 = false by decide),
        hne (show isDigit 0x0d = false by decide)]
    exact ⟨hspace, hne (by decide), hne (by decide), hne (by decide), hne (by decide),
      hne (by decide), hne (by decide), hne (by decide)⟩

/-! ## Reading -/

/-- The text begins a value and is read as one wherever it stands, if there is fuel for its
bytes. -/
structure Reads (text : Bytes) (value : Json) : Prop where
  /-- Neither white space nor the bracket that closes an empty list. -/
  begins : ∃ b tail, text = b :: tail ∧ isSpace b = false ∧ b ≠ 0x5d
  reads : ∀ fuel rest, text.length < fuel → EndsNumber rest →
    readValue fuel (text ++ rest) = some (value, rest)

theorem reads_number {l : Literal} (hpoint : l.places ≠ some 0) :
    Reads (scalar (.number l)) (.number l) := by
  obtain ⟨b, tail, htext, hbegins⟩ := text_begins l
  obtain ⟨hspace, hquote, hopening, hclosing, hbrace, hn, ht, hf⟩ := begins_number hbegins
  refine ⟨⟨b, tail, htext, hspace, hclosing⟩, fun fuel rest hfuel hrest => ?_⟩
  obtain ⟨fuel, rfl⟩ := Nat.exists_eq_add_one_of_ne_zero (Nat.ne_zero_of_lt hfuel)
  have hread := readNumber_text hpoint hrest
  change readValue (fuel + 1) (asciiBytes (l.text numberStyle.exponentSign) ++ rest) = _
  rw [htext, List.cons_append] at hread ⊢
  rw [readValue, skipSpace_cons hspace]
  simp only [if_neg hquote, if_neg hopening, if_neg hbrace, if_neg hn, if_neg ht, if_neg hf, hread,
    Option.map_some]

theorem reads_string {body : Bytes} (hbody : Closed body) :
    Reads (scalar (.string body)) (.string body) := by
  refine ⟨⟨quote, _, rfl, by decide, by decide⟩, fun fuel rest hfuel _ => ?_⟩
  obtain ⟨fuel, rfl⟩ := Nat.exists_eq_add_one_of_ne_zero (Nat.ne_zero_of_lt hfuel)
  have htext : scalar (.string body) ++ rest = 0x22 :: (body ++ quote :: rest) := by
    simp [scalar, quoted, quote]
  rw [htext, readValue, skipSpace_cons (by decide)]
  simp [hbody rest]

theorem reads_null : Reads (scalar .null) .null := by
  have htext : scalar .null = [0x6e, 0x75, 0x6c, 0x6c] := asciiBytes_words.1
  refine ⟨⟨_, _, htext, by decide, by decide⟩, fun fuel rest hfuel _ => ?_⟩
  obtain ⟨fuel, rfl⟩ := Nat.exists_eq_add_one_of_ne_zero (Nat.ne_zero_of_lt hfuel)
  rw [htext, List.cons_append, readValue, skipSpace_cons (by decide)]
  simp [expect]

theorem reads_bool (b : Bool) : Reads (scalar (.bool b)) (.bool b) := by
  obtain ⟨-, htrue, hfalse⟩ := asciiBytes_words
  cases b with
  | true =>
    have htext : scalar (.bool true) = [0x74, 0x72, 0x75, 0x65] := htrue
    refine ⟨⟨_, _, htext, by decide, by decide⟩, fun fuel rest hfuel _ => ?_⟩
    obtain ⟨fuel, rfl⟩ := Nat.exists_eq_add_one_of_ne_zero (Nat.ne_zero_of_lt hfuel)
    rw [htext, List.cons_append, readValue, skipSpace_cons (by decide)]
    simp [expect]
  | false =>
    have htext : scalar (.bool false) = [0x66, 0x61, 0x6c, 0x73, 0x65] := hfalse
    refine ⟨⟨_, _, htext, by decide, by decide⟩, fun fuel rest hfuel _ => ?_⟩
    obtain ⟨fuel, rfl⟩ := Nat.exists_eq_add_one_of_ne_zero (Nat.ne_zero_of_lt hfuel)
    rw [htext, List.cons_append, readValue, skipSpace_cons (by decide)]
    simp [expect]

/-! ## Lists and objects

Both layouts put the parts of a list or an object between commas, each after the same gap. -/

def joined (gap : Bytes) : List Bytes → Bytes
  | [] => []
  | [part] => gap ++ part
  | part :: parts => gap ++ part ++ 0x2c :: joined gap parts

theorem joined_map_cons_cons {α : Type} (gap : Bytes) (part : α → Bytes) (x y : α) (xs : List α) :
    joined gap ((x :: y :: xs).map part) =
      gap ++ (part x ++ 0x2c :: joined gap ((y :: xs).map part)) :=
  List.append_assoc _ _ _

theorem joined_map_begins {α : Type} (gap : Bytes) (part : α → Bytes) (x : α) (xs : List α) :
    ∃ others, joined gap ((x :: xs).map part) = gap ++ (part x ++ others) := by
  cases xs with
  | nil => exact ⟨[], by rw [List.append_nil]; rfl⟩
  | cons y xs => exact ⟨_, joined_map_cons_cons gap part x y xs⟩

/-- Items are read up to the closing bracket. -/
theorem readItems_joined (hgap : Blank gap) (hclosing : Blank closing) {items : List Json}
    (hitems : ∀ item ∈ items, Reads (write item) item) (hne : items ≠ [])
    (hfuel : (joined gap (items.map write)).length + 1 < fuel) :
    readItems fuel (joined gap (items.map write) ++ (closing ++ 0x5d :: rest)) =
      some (items, rest) := by
  induction items generalizing fuel with
  | nil => exact absurd rfl hne
  | cons item items ih =>
    obtain ⟨fuel, rfl⟩ := Nat.exists_eq_add_one_of_ne_zero (Nat.ne_zero_of_lt hfuel)
    have hitem := hitems item List.mem_cons_self
    cases items with
    | nil =>
      simp only [List.map_cons, List.map_nil, joined, List.length_append] at hfuel ⊢
      rw [List.append_assoc, readItems, hgap.readValue,
        hitem.reads fuel _ (by omega) (hclosing.endsNumber (endsNumber_cons (by decide)))]
      simp only [Option.bind_eq_bind, Option.bind_some, hclosing.skipSpace]
      rw [skipSpace_cons (by decide)]
      rfl
    | cons next items =>
      rw [joined_map_cons_cons] at hfuel ⊢
      simp only [List.length_append, List.length_cons] at hfuel
      have hothers : readItems fuel (joined gap ((next :: items).map write) ++
          (closing ++ 0x5d :: rest)) = some (next :: items, rest) :=
        ih (fun item hitem => hitems item (List.mem_cons_of_mem _ hitem)) (by simp) (by omega)
      rw [List.append_assoc, List.append_assoc, List.cons_append, readItems, hgap.readValue,
        hitem.reads fuel _ (by omega) (endsNumber_cons (by decide))]
      simp only [Option.bind_eq_bind, Option.bind_some]
      rw [skipSpace_cons (by decide)]
      simp only [hothers, Option.bind_some]

/-- A member: its key, the colon and its value after a gap. -/
def memberText (gap : Bytes) (write : Json → Bytes) (member : Bytes × Json) : Bytes :=
  quoted member.1 ++ 0x3a :: (gap ++ write member.2)

/-- A member is read as its key, up to the colon, and its value. -/
theorem readMembers_member {between : Bytes} {member : Bytes × Json} (hgap : Blank gap)
    (hbetween : Blank between) (hkey : Closed member.1)
    (hvalue : Reads (write member.2) member.2) (hfuel : (write member.2).length < fuel)
    (hrest : EndsNumber rest) :
    readMembers (fuel + 1) (gap ++ (memberText between write member ++ rest)) =
      match skipSpace rest with
      | 0x2c :: rest => do
        let (members, tail) ← readMembers fuel rest
        some (member :: members, tail)
      | 0x7d :: tail => some ([member], tail)
      | _ => none := by
  have hbegin : skipSpace (gap ++ (memberText between write member ++ rest)) =
      0x22 :: (member.1 ++ quote :: 0x3a :: (between ++ (write member.2 ++ rest))) := by
    rw [hgap.skipSpace]
    simp only [memberText, quoted, List.cons_append, List.append_assoc, List.nil_append]
    exact skipSpace_cons (by decide)
  have hbody := hkey (0x3a :: (between ++ (write member.2 ++ rest)))
  have hread := (hbetween.readValue _).trans (hvalue.reads fuel rest hfuel hrest)
  rw [readMembers, hbegin]
  simp only [hbody, Option.bind_eq_bind, Option.bind_some]
  rw [skipSpace_cons (by decide)]
  exact congrArg (Option.bind · _) hread

/-- Members are read up to the closing brace. -/
theorem readMembers_joined {between : Bytes} (hgap : Blank gap) (hbetween : Blank between)
    (hclosing : Blank closing) {members : List (Bytes × Json)}
    (hkeys : ∀ member ∈ members, Closed member.1)
    (hvalues : ∀ member ∈ members, Reads (write member.2) member.2) (hne : members ≠ [])
    (hfuel : (joined gap (members.map (memberText between write))).length + 1 < fuel) :
    readMembers fuel (joined gap (members.map (memberText between write)) ++
      (closing ++ 0x7d :: rest)) = some (members, rest) := by
  induction members generalizing fuel with
  | nil => exact absurd rfl hne
  | cons member members ih =>
    obtain ⟨fuel, rfl⟩ := Nat.exists_eq_add_one_of_ne_zero (Nat.ne_zero_of_lt hfuel)
    have hkey := hkeys member List.mem_cons_self
    have hvalue := hvalues member List.mem_cons_self
    have hlength : (write member.2).length < (memberText between write member).length := by
      simp only [memberText, quoted, List.length_append, List.length_cons]
      omega
    cases members with
    | nil =>
      simp only [List.map_cons, List.map_nil, joined, List.length_append] at hfuel ⊢
      rw [List.append_assoc, readMembers_member hgap hbetween hkey hvalue (by omega)
        (hclosing.endsNumber (endsNumber_cons (by decide))), hclosing.skipSpace,
        skipSpace_cons (by decide)]
      rfl
    | cons next members =>
      rw [joined_map_cons_cons] at hfuel ⊢
      simp only [List.length_append, List.length_cons] at hfuel
      have hothers : readMembers fuel (joined gap ((next :: members).map
          (memberText between write)) ++ (closing ++ 0x7d :: rest)) =
          some (next :: members, rest) :=
        ih (fun member hmember => hkeys member (List.mem_cons_of_mem _ hmember))
          (fun member hmember => hvalues member (List.mem_cons_of_mem _ hmember)) (by simp)
          (by omega)
      rw [List.append_assoc, List.append_assoc, List.cons_append,
        readMembers_member hgap hbetween hkey hvalue (by omega) (endsNumber_cons (by decide)),
        skipSpace_cons (by decide)]
      simp only [hothers, Option.bind_eq_bind, Option.bind_some]

theorem reads_brackets : Reads [0x5b, 0x5d] (.array []) := by
  refine ⟨⟨0x5b, _, rfl, by decide, by decide⟩, fun fuel rest hfuel _ => ?_⟩
  obtain ⟨fuel, rfl⟩ := Nat.exists_eq_add_one_of_ne_zero (Nat.ne_zero_of_lt hfuel)
  change readValue (fuel + 1) (0x5b :: 0x5d :: rest) = _
  rw [readValue, skipSpace_cons (by decide)]
  rfl

theorem reads_braces : Reads [0x7b, 0x7d] (.object []) := by
  refine ⟨⟨0x7b, _, rfl, by decide, by decide⟩, fun fuel rest hfuel _ => ?_⟩
  obtain ⟨fuel, rfl⟩ := Nat.exists_eq_add_one_of_ne_zero (Nat.ne_zero_of_lt hfuel)
  change readValue (fuel + 1) (0x7b :: 0x7d :: rest) = _
  rw [readValue, skipSpace_cons (by decide)]
  rfl

theorem reads_array (hgap : Blank gap) (hclosing : Blank closing) {items : List Json}
    (hitems : ∀ item ∈ items, Reads (write item) item) (hne : items ≠ []) :
    Reads (0x5b :: (joined gap (items.map write) ++ (closing ++ [0x5d]))) (.array items) := by
  refine ⟨⟨0x5b, _, rfl, by decide, by decide⟩, fun fuel rest hfuel _ => ?_⟩
  obtain ⟨fuel, rfl⟩ := Nat.exists_eq_add_one_of_ne_zero (Nat.ne_zero_of_lt hfuel)
  simp only [List.length_cons, List.length_append] at hfuel
  have hread : readItems fuel (joined gap (items.map write) ++ (closing ++ 0x5d :: rest)) =
      some (items, rest) :=
    readItems_joined hgap hclosing hitems hne (by omega)
  -- What follows the bracket is not the one that closes an empty list.
  have hskip : ∃ b tail, skipSpace (joined gap (items.map write) ++ (closing ++ 0x5d :: rest)) =
      b :: tail ∧ b ≠ 0x5d := by
    obtain ⟨item, items, rfl⟩ := List.exists_cons_of_ne_nil hne
    obtain ⟨b, tail, hfirst, hspace, hbracket⟩ := (hitems item List.mem_cons_self).begins
    obtain ⟨others, htext⟩ := joined_map_begins gap write item items
    refine ⟨b, tail ++ others ++ (closing ++ 0x5d :: rest), ?_, hbracket⟩
    rw [htext, List.append_assoc, hgap.skipSpace, hfirst]
    exact skipSpace_cons hspace
  obtain ⟨b, tail, hskip, hbracket⟩ := hskip
  rw [List.cons_append, List.append_assoc, List.append_assoc, List.singleton_append, readValue,
    skipSpace_cons (by decide)]
  simp [hskip, hbracket, hread]

theorem reads_object {between : Bytes} (hgap : Blank gap) (hbetween : Blank between)
    (hclosing : Blank closing) {members : List (Bytes × Json)}
    (hkeys : ∀ member ∈ members, Closed member.1)
    (hvalues : ∀ member ∈ members, Reads (write member.2) member.2) (hne : members ≠ []) :
    Reads (0x7b :: (joined gap (members.map (memberText between write)) ++ (closing ++ [0x7d])))
      (.object members) := by
  refine ⟨⟨0x7b, _, rfl, by decide, by decide⟩, fun fuel rest hfuel _ => ?_⟩
  obtain ⟨fuel, rfl⟩ := Nat.exists_eq_add_one_of_ne_zero (Nat.ne_zero_of_lt hfuel)
  simp only [List.length_cons, List.length_append] at hfuel
  have hread : readMembers fuel (joined gap (members.map (memberText between write)) ++
      (closing ++ 0x7d :: rest)) = some (members, rest) :=
    readMembers_joined hgap hbetween hclosing hkeys hvalues hne (by omega)
  -- What follows the brace is the quote of the first key.
  have hskip : ∃ tail, skipSpace (joined gap (members.map (memberText between write)) ++
      (closing ++ 0x7d :: rest)) = quote :: tail := by
    obtain ⟨member, members, rfl⟩ := List.exists_cons_of_ne_nil hne
    obtain ⟨others, htext⟩ := joined_map_begins gap (memberText between write) member members
    rw [htext, List.append_assoc, hgap.skipSpace]
    exact ⟨_, skipSpace_cons (by decide)⟩
  obtain ⟨tail, hskip⟩ := hskip
  rw [List.cons_append, List.append_assoc, List.append_assoc, List.singleton_append, readValue,
    skipSpace_cons (by decide)]
  simp [hskip, quote, hread]

/-! ## The layouts -/

theorem prettyItems_eq_joined (level : Nat) (items : List Json) :
    prettyItems level items = joined (newline level) (items.map (prettyAt level)) := by
  induction items with
  | nil => rfl
  | cons item items ih =>
    cases items with
    | nil => rfl
    | cons next items => exact congrArg (newline level ++ prettyAt level item ++ 0x2c :: ·) ih

theorem prettyMembers_eq_joined (level : Nat) (members : List (Bytes × Json)) :
    prettyMembers level members =
      joined (newline level) (members.map (memberText [0x20] (prettyAt level))) := by
  induction members with
  | nil => rfl
  | cons member members ih =>
    cases members with
    | nil => exact List.append_assoc _ _ _
    | cons next members =>
      have hsplit : prettyMembers level (member :: next :: members) =
          newline level ++ quoted member.1 ++ 0x3a :: 0x20 ::
            (prettyAt level member.2 ++ 0x2c :: prettyMembers level (next :: members)) := rfl
      rw [hsplit, ih, joined_map_cons_cons]
      simp [memberText]

theorem compactItems_eq_joined (items : List Json) :
    compactItems items = joined [] (items.map compact) := by
  induction items with
  | nil => rfl
  | cons item items ih =>
    cases items with
    | nil => rfl
    | cons next items => exact congrArg (compact item ++ 0x2c :: ·) ih

theorem compactMembers_eq_joined (members : List (Bytes × Json)) :
    compactMembers members = joined [] (members.map (memberText [] compact)) := by
  induction members with
  | nil => rfl
  | cons member members ih =>
    cases members with
    | nil => rfl
    | cons next members =>
      have hsplit : compactMembers (member :: next :: members) =
          quoted member.1 ++ 0x3a ::
            (compact member.2 ++ 0x2c :: compactMembers (next :: members)) := rfl
      rw [hsplit, ih, joined_map_cons_cons]
      simp [memberText]

/-- A tree that can be written is read back from its pretty layout at any level. -/
theorem Writable.reads_prettyAt {value : Json} (hwritable : Writable value) (level : Nat) :
    Reads (prettyAt level value) value := by
  have hspace : Blank [0x20] := by simp [Blank, isSpace]
  induction hwritable generalizing level with
  | null => exact reads_null
  | bool b => exact reads_bool b
  | number hpoint => exact reads_number hpoint
  | string hbody => exact reads_string hbody
  | @array items _ ih =>
    cases items with
    | nil => exact reads_brackets
    | cons item items =>
      have htext : prettyAt level (.array (item :: items)) =
          0x5b :: (prettyItems (level + 1) (item :: items) ++ newline level ++ [0x5d]) := rfl
      rw [htext, prettyItems_eq_joined, List.append_assoc]
      exact reads_array (blank_newline _) (blank_newline _)
        (fun item hitem => ih item hitem (level + 1)) (List.cons_ne_nil _ _)
  | @object members hkeys _ ih =>
    cases members with
    | nil => exact reads_braces
    | cons member members =>
      have htext : prettyAt level (.object (member :: members)) =
          0x7b :: (prettyMembers (level + 1) (member :: members) ++ newline level ++ [0x7d]) := rfl
      rw [htext, prettyMembers_eq_joined, List.append_assoc]
      exact reads_object (blank_newline _) hspace (blank_newline _) hkeys
        (fun member hmember => ih member hmember (level + 1)) (List.cons_ne_nil _ _)

/-- A tree that can be written is read back from its compact layout. -/
theorem Writable.reads_compact {value : Json} (hwritable : Writable value) :
    Reads (compact value) value := by
  induction hwritable with
  | null => exact reads_null
  | bool b => exact reads_bool b
  | number hpoint => exact reads_number hpoint
  | string hbody => exact reads_string hbody
  | @array items _ ih =>
    cases items with
    | nil => exact reads_brackets
    | cons item items =>
      have htext : compact (.array (item :: items)) =
          0x5b :: (compactItems (item :: items) ++ [0x5d]) := rfl
      rw [htext, compactItems_eq_joined]
      exact reads_array blank_nil blank_nil ih (List.cons_ne_nil _ _)
  | @object members hkeys _ ih =>
    cases members with
    | nil => exact reads_braces
    | cons member members =>
      have htext : compact (.object (member :: members)) =
          0x7b :: (compactMembers (member :: members) ++ [0x7d]) := rfl
      rw [htext, compactMembers_eq_joined]
      exact reads_object blank_nil blank_nil blank_nil hkeys ih (List.cons_ne_nil _ _)

/-- A text that is read as a value anywhere is parsed as the value. -/
theorem Reads.parse {text : Bytes} {value : Json} (hreads : Reads text value) :
    Json.parse text = some value := by
  have hread : readValue (text.length + 1) (text ++ []) = some (value, []) :=
    hreads.reads _ [] (Nat.lt_succ_self _) (by simp [EndsNumber])
  rw [List.append_nil] at hread
  rw [Json.parse, hread]
  rfl

/-- The pretty layout of a tree that can be written is parsed as the tree. -/
theorem parse_pretty {value : Json} (hwritable : Writable value) :
    parse value.pretty = some value :=
  (hwritable.reads_prettyAt 0).parse

/-- The compact layout of a tree that can be written is parsed as the tree. -/
theorem parse_compact {value : Json} (hwritable : Writable value) :
    parse value.compact = some value :=
  hwritable.reads_compact.parse

end TraceReplay.Json
