import TraceReplay.Proofs.Json.Number

/-!
# Written texts are read back

Each character of a text is written as a short escape, as the number of a control character or
as it is.  Whichever it is, the reader takes it as one piece of the body of a string, and decoding
turns the piece into the bytes of the character again; so every text is what its written body
stands for.
-/

namespace TraceReplay.Json

variable {input : Bytes}

/-- What a byte that is written as it is cannot be. -/
def Plain (b : UInt8) : Prop := ¬b < 0x20 ∧ b ≠ quote ∧ b ≠ backslash

theorem plain_ofNat {n : Nat} (hcontrol : 0x20 ≤ n) (hquote : n ≠ 0x22) (hbackslash : n ≠ 0x5c)
    (hbyte : n < 0x100) : Plain (UInt8.ofNat n) := by
  have hvalue : (UInt8.ofNat n).toNat = n := by
    rw [UInt8.toNat_ofNat']
    exact Nat.mod_eq_of_lt hbyte
  refine ⟨?_, ?_, ?_⟩
  · rw [UInt8.lt_iff_toNat_lt, hvalue]
    exact Nat.not_lt.mpr hcontrol
  · intro heq
    exact hquote (hvalue ▸ congrArg UInt8.toNat heq)
  · intro heq
    exact hbackslash (hvalue ▸ congrArg UInt8.toNat heq)

/-- The bytes of a character that is not escaped are plain. -/
theorem plain_utf8 {c : Char} (hquote : c ≠ '"') (hbackslash : c ≠ '\\')
    (hcontrol : 0x20 ≤ c.toNat) : ∀ b ∈ String.utf8EncodeChar c, Plain b := by
  intro b hb
  have hquote' : c.val.toNat ≠ 0x22 := fun heq => hquote (Char.toNat_inj.mp heq)
  have hbackslash' : c.val.toNat ≠ 0x5c := fun heq => hbackslash (Char.toNat_inj.mp heq)
  change 0x20 ≤ c.val.toNat at hcontrol
  unfold String.utf8EncodeChar at hb
  dsimp only at hb
  split_ifs at hb <;> simp only [List.mem_cons, List.not_mem_nil, or_false] at hb
  · subst hb
    exact plain_ofNat hcontrol hquote' hbackslash' (by omega)
  · rcases hb with rfl | rfl <;> apply plain_ofNat <;> omega
  · rcases hb with rfl | rfl | rfl <;> apply plain_ofNat <;> omega
  · rcases hb with rfl | rfl | rfl | rfl <;> apply plain_ofNat <;> omega

theorem hexUnit?_control : ∀ n < 0x20, hexUnit? 0x30 0x30 (Nat.digitChar (n / 16)).toUInt8
    (Nat.digitChar (n % 16)).toUInt8 = some n := by decide

/-- The three ways in which a character is written. -/
theorem escapeChar_cases (c : Char) :
    (∃ e b, escapeChar c = [backslash, e] ∧ e ≠ 0x75 ∧ shortEscapes.lookup e = some b ∧
      String.utf8EncodeChar c = [b]) ∨
    (∃ h l, escapeChar c = [backslash, 0x75, 0x30, 0x30, h, l] ∧
      hexUnit? 0x30 0x30 h l = some c.toNat ∧ c.toNat < 0x20) ∨
    (escapeChar c = String.utf8EncodeChar c ∧ ∀ b ∈ String.utf8EncodeChar c, Plain b) := by
  have hchar {d : Char} (hsame : c.toNat = d.toNat) : c = d := Char.toNat_inj.mp hsame
  by_cases hquote : c = '"'
  · exact .inl ⟨0x22, 0x22, by rw [hquote]; rfl, by decide, rfl, by rw [hquote]; rfl⟩
  by_cases hbackslash : c = '\\'
  · exact .inl ⟨0x5c, 0x5c, by rw [hbackslash]; rfl, by decide, rfl, by rw [hbackslash]; rfl⟩
  by_cases hcontrol : c.toNat < 0x20
  · by_cases hshort : c.toNat = 0x08 ∨ c.toNat = 0x09 ∨ c.toNat = 0x0a ∨ c.toNat = 0x0c ∨
        c.toNat = 0x0d
    · refine .inl ?_
      rcases hshort with h | h | h | h | h
      · obtain rfl : c = '\x08' := hchar h
        exact ⟨0x62, 0x08, rfl, by decide, rfl, rfl⟩
      · obtain rfl : c = '\t' := hchar h
        exact ⟨0x74, 0x09, rfl, by decide, rfl, rfl⟩
      · obtain rfl : c = '\n' := hchar h
        exact ⟨0x6e, 0x0a, rfl, by decide, rfl, rfl⟩
      · obtain rfl : c = '\x0c' := hchar h
        exact ⟨0x66, 0x0c, rfl, by decide, rfl, rfl⟩
      · obtain rfl : c = '\r' := hchar h
        exact ⟨0x72, 0x0d, rfl, by decide, rfl, rfl⟩
    · refine .inr (.inl ⟨_, _, ?_, hexUnit?_control _ hcontrol, hcontrol⟩)
      unfold escapeChar
      rw [if_neg hquote, if_neg hbackslash, if_neg (by omega), if_neg (by omega),
        if_neg (by omega), if_neg (by omega), if_neg (by omega), if_pos hcontrol,
        asciiBytes_ofList]
      rfl
  · refine .inr (.inr ⟨?_, plain_utf8 hquote hbackslash (not_lt.mp hcontrol)⟩)
    unfold escapeChar
    rw [if_neg hquote, if_neg hbackslash, if_neg (by omega), if_neg (by omega), if_neg (by omega),
      if_neg (by omega), if_neg (by omega), if_neg hcontrol]

/-! ## Bodies -/

theorem backslash_ne_quote : backslash ≠ quote := by decide

theorem backslash_not_control : ¬backslash < 0x20 := by decide

theorem readBody_plain {b : UInt8} (hplain : Plain b) :
    readBody (b :: input) = (readBody input).map fun (body, tail) => (b :: body, tail) := by
  obtain ⟨hcontrol, hquote, hbackslash⟩ := hplain
  rw [readBody.eq_def]
  simp only [if_neg hquote, if_neg hcontrol, if_pos hbackslash]

theorem readBody_plains {bytes : Bytes} (hplain : ∀ b ∈ bytes, Plain b) :
    readBody (bytes ++ input) =
      (readBody input).map fun (body, tail) => (bytes ++ body, tail) := by
  induction bytes with
  | nil => simp
  | cons b bytes ih =>
    rw [List.cons_append, readBody_plain (hplain b List.mem_cons_self),
      ih fun b hb => hplain b (List.mem_cons_of_mem _ hb), Option.map_map]
    rfl

theorem readBody_escapeChar (c : Char) :
    readBody (escapeChar c ++ input) =
      (readBody input).map fun (body, tail) => (escapeChar c ++ body, tail) := by
  rcases escapeChar_cases c with ⟨e, b, hescape, he, hlookup, -⟩ | ⟨h, l, hescape, hunit, -⟩ |
    ⟨hescape, hplain⟩ <;> rw [hescape]
  · -- A short escape is none with a number.
    have hshort : ∀ a b d e' rest, e :: input ≠ 0x75 :: a :: b :: d :: e' :: rest :=
      fun _ _ _ _ _ heq => he (List.cons.inj heq).1
    simp only [List.cons_append, List.nil_append]
    rw [readBody.eq_def]
    simp only [backslash_ne_quote, backslash_not_control, ne_eq, not_true_eq_false, if_false]
    split
    next heq => exact absurd heq (hshort _ _ _ _ _)
    next heq =>
      obtain ⟨rfl, rfl⟩ := List.cons.inj heq
      rw [hlookup]
      simp
    next heq => exact absurd heq (by simp)
  · simp only [List.cons_append, List.nil_append]
    rw [readBody.eq_def]
    simp [backslash, quote, hunit]
  · exact readBody_plains hplain

/-- The written body of a text is read up to the quote after it. -/
theorem readBody_encodeText (s : String) (rest : Bytes) :
    readBody (encodeText s ++ quote :: rest) = some (encodeText s, rest) := by
  unfold encodeText
  induction s.toList with
  | nil =>
    rw [readBody.eq_def]
    rfl
  | cons c cs ih =>
    rw [List.flatMap_cons, List.append_assoc, readBody_escapeChar, ih]
    rfl

/-! ## Decoding -/

theorem unescape_plains {bytes : Bytes} (hplain : ∀ b ∈ bytes, Plain b) :
    unescape (bytes ++ input) = (unescape input).map (bytes ++ ·) := by
  induction bytes with
  | nil => simp
  | cons b bytes ih =>
    obtain ⟨-, -, hbackslash⟩ := hplain b List.mem_cons_self
    rw [List.cons_append, unescape.eq_def]
    simp only [if_pos hbackslash]
    rw [ih fun b hb => hplain b (List.mem_cons_of_mem _ hb), Option.map_map]
    rfl

theorem unescape_escapeChar (c : Char) :
    unescape (escapeChar c ++ input) = (unescape input).map (String.utf8EncodeChar c ++ ·) := by
  rcases escapeChar_cases c with ⟨e, b, hescape, he, hlookup, hbyte⟩ |
    ⟨h, l, hescape, hunit, hcontrol⟩ | ⟨hescape, hplain⟩ <;> rw [hescape]
  · have hshort : ∀ a b c d rest, e :: input ≠ 0x75 :: a :: b :: c :: d :: rest :=
      fun _ _ _ _ _ heq => he (List.cons.inj heq).1
    simp only [List.cons_append, List.nil_append]
    rw [unescape.eq_def]
    simp only [ne_eq, not_true_eq_false, if_false]
    split
    next heq => exact absurd heq (hshort _ _ _ _ _)
    next heq =>
      obtain ⟨rfl, rfl⟩ := List.cons.inj heq
      rw [hlookup, hbyte]
      rfl
    next heq => exact absurd heq (by simp)
  · simp only [List.cons_append, List.nil_append]
    rw [unescape.eq_def]
    have hunit' : c.toNat < 0xd800 ∨ 0xdfff < c.toNat := by omega
    simp only [ne_eq, not_true_eq_false, if_false, hunit, Option.bind_eq_bind, Option.bind_some,
      if_pos hunit', Char.ofNat_toNat]
  · exact unescape_plains hplain

/-- A text is what its written body stands for. -/
theorem decodeText_encodeText (s : String) : decodeText (encodeText s) = some s := by
  have hbytes : unescape (encodeText s) = some (s.toList.flatMap String.utf8EncodeChar) := by
    unfold encodeText
    induction s.toList with
    | nil => rfl
    | cons c cs ih =>
      rw [List.flatMap_cons, unescape_escapeChar, ih, List.flatMap_cons]
      rfl
  have hutf8 : (⟨(s.toList.flatMap String.utf8EncodeChar).toArray⟩ : ByteArray) =
      s.toByteArray := by
    rw [← String.utf8Encode_toList, List.utf8Encode]
    exact ByteArray.ext List.data_toByteArray.symm
  rw [decodeText, hbytes]
  simp only [Option.bind_eq_bind, Option.bind_some, hutf8]
  rw [String.fromUTF8?, dif_pos s.isValidUTF8]
  rfl

end TraceReplay.Json
