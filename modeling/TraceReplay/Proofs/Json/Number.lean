import TraceReplay.Json.Reading
import TraceReplay.Json.Writing
import TraceReplay.Proofs.Invocation.Identity

/-!
# Written numbers are read back

A literal is written as its sign, its digits with the point among them, and its exponent.  Each
of these is read back up to where the next begins, so a literal whose point is followed by digits
is read as itself from its text, whatever follows that cannot go on with a number.
-/

namespace TraceReplay.Json

open Decimal

variable {rest : Bytes}

theorem asciiBytes_append (s t : String) : asciiBytes (s ++ t) = asciiBytes s ++ asciiBytes t := by
  simp [asciiBytes]

theorem asciiBytes_ofList (cs : List Char) :
    asciiBytes (String.ofList cs) = cs.map Char.toUInt8 := by
  simp [asciiBytes]

/-! ## Digits -/

/-- What a number cannot go on with. -/
def EndsNumber (rest : Bytes) : Prop :=
  ∀ b ∈ rest.head?, isDigit b = false ∧ b ≠ 0x2e ∧ b ≠ 0x65 ∧ b ≠ 0x45

theorem toNat_toUInt8 {c : Char} (hdigit : c.isDigit = true) : c.toUInt8.toNat = c.toNat := by
  have hrange : 48 ≤ c.toNat ∧ c.toNat ≤ 57 := Char.isDigit_iff_toNat.mp hdigit
  change c.val.toUInt8.toNat = c.val.toNat
  rw [UInt32.toNat_toUInt8]
  exact Nat.mod_eq_of_lt (by change c.toNat < 256; omega)

theorem isDigit_toUInt8 {c : Char} (hdigit : c.isDigit = true) : isDigit c.toUInt8 = true := by
  have hrange : 48 ≤ c.toNat ∧ c.toNat ≤ 57 := Char.isDigit_iff_toNat.mp hdigit
  rw [← toNat_toUInt8 hdigit] at hrange
  simp only [isDigit, Bool.and_eq_true, decide_eq_true_eq, UInt8.le_iff_toNat_le]
  exact hrange

theorem isDigit_map {digits : List Char} (hdigits : ∀ c ∈ digits, c.isDigit = true) :
    ∀ b ∈ digits.map Char.toUInt8, isDigit b = true := by
  intro b hb
  obtain ⟨c, hc, rfl⟩ := List.mem_map.mp hb
  exact isDigit_toUInt8 (hdigits c hc)

theorem digitsValue_map {digits : List Char} (hdigits : ∀ c ∈ digits, c.isDigit = true) :
    digitsValue (digits.map Char.toUInt8) = Nat.ofDigitChars 10 digits 0 := by
  have hfold (acc : Nat) : (digits.map Char.toUInt8).foldl
      (fun n d => n * 10 + (d.toNat - 0x30)) acc = Nat.ofDigitChars 10 digits acc := by
    induction digits generalizing acc with
    | nil => rfl
    | cons c digits ih =>
      rw [List.map_cons, List.foldl_cons, ih fun c hc => hdigits c (List.mem_cons_of_mem _ hc),
        toNat_toUInt8 (hdigits c List.mem_cons_self), Nat.ofDigitChars_cons, Nat.mul_comm]
      rfl
  exact hfold 0

/-- A run of digits is read up to where it ends. -/
theorem span_digits {digits : Bytes} (hdigits : ∀ b ∈ digits, isDigit b = true)
    (hrest : ∀ b ∈ rest.head?, isDigit b = false) :
    (digits ++ rest).takeWhile isDigit = digits ∧ (digits ++ rest).dropWhile isDigit = rest := by
  rw [List.takeWhile_append_of_pos hdigits, List.dropWhile_append_of_pos hdigits]
  cases rest with
  | nil => simp
  | cons b rest => simp [hrest b rfl]

/-- An integer as it is written. -/
def numeral (n : Nat) : Bytes := (Nat.toDigits 10 n).map Char.toUInt8

theorem asciiBytes_numeral (n : Nat) : asciiBytes (Nat.repr n) = numeral n := by
  rw [asciiBytes, Nat.toList_repr, numeral]

theorem isDigit_numeral (n : Nat) : ∀ b ∈ numeral n, isDigit b = true :=
  isDigit_map fun _ => Nat.isDigit_of_mem_toDigits (by decide) (by decide)

theorem numeral_ne_nil (n : Nat) : numeral n ≠ [] :=
  List.map_eq_nil_iff.not.mpr Nat.toDigits_ne_nil

theorem digitsValue_numeral (n : Nat) : digitsValue (numeral n) = n := by
  rw [numeral, digitsValue_map fun _ => Nat.isDigit_of_mem_toDigits (by decide) (by decide),
    Nat.ofDigitChars_ten_toDigits]

/-! ## The exponent -/

/-- The exponent as it is written. -/
def exponentBytes : Option Int → Bytes
  | none => []
  | some e => 0x65 :: (if e < 0 then 0x2d else 0x2b) :: numeral e.natAbs

theorem readExponent_exponentBytes (exponent : Option Int) (hrest : EndsNumber rest) :
    readExponent (exponentBytes exponent ++ rest) = some (exponent, rest) := by
  cases exponent with
  | none =>
    cases rest with
    | nil => rfl
    | cons b rest =>
      obtain ⟨-, -, hlower, hupper⟩ := hrest b rfl
      simp [exponentBytes, readExponent, hlower, hupper]
  | some e =>
    obtain ⟨htake, hdrop⟩ := span_digits (isDigit_numeral e.natAbs) fun b hb => (hrest b hb).1
    have hne := numeral_ne_nil e.natAbs
    by_cases hnegative : e < 0
    · have hback : -|e| = e := by rw [abs_of_neg hnegative, neg_neg]
      simp [exponentBytes, readExponent, hnegative, htake, hdrop, hne, digitsValue_numeral, hback]
    · have hback : |e| = e := abs_of_nonneg (not_lt.mp hnegative)
      simp [exponentBytes, readExponent, hnegative, htake, hdrop, hne, digitsValue_numeral, hback]

/-! ## The fraction -/

/-- The fraction as it is written. -/
def fractionBytes : Option Bytes → Bytes
  | none => []
  | some digits => 0x2e :: digits

theorem readFraction_fractionBytes {fraction : Option Bytes}
    (hfraction : ∀ digits ∈ fraction, digits ≠ [] ∧ ∀ b ∈ digits, isDigit b = true)
    (hrest : ∀ b ∈ rest.head?, isDigit b = false ∧ b ≠ 0x2e) :
    readFraction (fractionBytes fraction ++ rest) = some (fraction, rest) := by
  cases fraction with
  | none =>
    cases rest with
    | nil => rfl
    | cons b rest => simp [fractionBytes, readFraction, (hrest b rfl).2]
  | some digits =>
    obtain ⟨hne, hdigits⟩ := hfraction digits rfl
    obtain ⟨htake, hdrop⟩ := span_digits hdigits fun b hb => (hrest b hb).1
    simp [fractionBytes, readFraction, htake, hdrop, hne]

/-! ## Numbers -/

/-- Only zero begins with a zero. -/
theorem head?_toDigits {n : Nat} (hzero : (Nat.toDigits 10 n).head? = some '0') : n = 0 := by
  induction n using Nat.strong_induction_on with
  | _ n ih =>
    rw [Nat.toDigits_eq_if (by decide)] at hzero
    split at hzero
    next => simpa using hzero
    next hmore =>
      rw [List.head?_append_of_ne_nil _ Nat.toDigits_ne_nil] at hzero
      have hrest := ih (n / 10) (by omega) hzero
      omega

theorem head?_numeral {n : Nat} (hzero : (numeral n).head? = some 0x30) : n = 0 := by
  rw [numeral, List.head?_map, Option.map_eq_some_iff] at hzero
  obtain ⟨c, hc, hbyte⟩ := hzero
  have hdigit : c.isDigit = true :=
    Nat.isDigit_of_mem_toDigits (by decide) (by decide) (List.mem_of_mem_head? hc)
  have hchar : c = '0' := by
    apply Char.toNat_inj.mp
    rw [← toNat_toUInt8 hdigit, hbyte]
    rfl
  exact head?_toDigits (hchar ▸ hc)

/-- All digits of a literal, with zeros in front of them as far as the point needs them. -/
def figures (l : Literal) : Bytes :=
  List.replicate (l.places.getD 0 + 1 - (numeral l.digits).length) 0x30 ++ numeral l.digits

/-- The digits before the point. -/
def wholeBytes (l : Literal) : Bytes :=
  (figures l).take ((figures l).length - l.places.getD 0)

/-- The digits after the point, if it is written. -/
def fraction? (l : Literal) : Option Bytes :=
  l.places.map fun places => (figures l).drop ((figures l).length - places)

@[simp]
theorem asciiBytes_empty : asciiBytes "" = [] := by simp [asciiBytes]

theorem asciiBytes_marks : asciiBytes "-" = [0x2d] ∧ asciiBytes "." = [0x2e] ∧
    asciiBytes "e" = [0x65] ∧ asciiBytes numberStyle.exponentSign = [0x2b] := by
  decide +kernel

theorem asciiBytes_exponent (e : Int) :
    asciiBytes ("e" ++ (if e < 0 then "" else numberStyle.exponentSign) ++ intText e) =
      exponentBytes (some e) := by
  obtain ⟨hminus, -, hmark, hplus⟩ := asciiBytes_marks
  unfold intText exponentBytes
  by_cases hnegative : e < 0 <;>
    simp [hnegative, asciiBytes_append, asciiBytes_numeral, hminus, hmark, hplus]

theorem map_padLeft (l : Literal) :
    (padLeft (l.places.getD 0 + 1) (toString l.digits)).toList.map Char.toUInt8 = figures l := by
  have hlength : (toString l.digits).length = (numeral l.digits).length := by
    rw [← String.length_toList, toList_toString, numeral, List.length_map]
  rw [padLeft, String.toList_append, String.toList_ofList, List.map_append, List.map_replicate,
    hlength, toList_toString]
  rfl

theorem text_bytes (l : Literal) :
    asciiBytes (l.text numberStyle.exponentSign) = (if l.negative then [0x2d] else []) ++
      (wholeBytes l ++ (fractionBytes (fraction? l) ++ exponentBytes l.exponent)) := by
  have hcount : (padLeft (l.places.getD 0 + 1) (toString l.digits)).toList.length =
      (figures l).length := by
    rw [← map_padLeft, List.length_map]
  obtain ⟨hminus, hpoint, -, -⟩ := asciiBytes_marks
  have hsign : asciiBytes (if l.negative then "-" else "") =
      if l.negative then [0x2d] else [] := by
    split
    · exact hminus
    · exact asciiBytes_empty
  have hfraction : asciiBytes (if l.places.isSome then "." ++ String.ofList
      ((padLeft (l.places.getD 0 + 1) (toString l.digits)).toList.drop
        ((figures l).length - l.places.getD 0)) else "") = fractionBytes (fraction? l) := by
    rw [← map_padLeft, fraction?]
    rcases hplaces : l.places with _ | places
    · exact asciiBytes_empty
    · simp [fractionBytes, asciiBytes_append, asciiBytes_ofList, List.map_drop, hpoint,
        ← map_padLeft, hplaces]
  unfold Literal.text
  rcases hexponent : l.exponent with _ | e
  · simp only [asciiBytes_append, hcount, hsign, hfraction, asciiBytes_ofList, List.map_take,
      map_padLeft, wholeBytes, List.append_assoc, asciiBytes_empty, exponentBytes]
  · rw [← asciiBytes_exponent]
    simp only [asciiBytes_append, hcount, hsign, hfraction, asciiBytes_ofList, List.map_take,
      map_padLeft, wholeBytes, List.append_assoc]

theorem isDigit_figures (l : Literal) : ∀ b ∈ figures l, isDigit b = true := by
  intro b hb
  rcases List.mem_append.mp hb with hzero | hdigit
  · rw [List.eq_of_mem_replicate hzero]
    decide
  · exact isDigit_numeral l.digits b hdigit

theorem digitsValue_figures (l : Literal) : digitsValue (figures l) = l.digits := by
  have hzeros (k : Nat) (digits : Bytes) :
      digitsValue (List.replicate k 0x30 ++ digits) = digitsValue digits := by
    induction k with
    | zero => rfl
    | succ k ih => exact ih
  rw [figures, hzeros, digitsValue_numeral]

theorem lt_length_figures (l : Literal) : l.places.getD 0 < (figures l).length := by
  rw [figures, List.length_append, List.length_replicate]
  omega

/-- Only a single zero stands before the point if the first digit is zero. -/
theorem length_wholeBytes {l : Literal} (hzero : (wholeBytes l).head? = some 0x30) :
    (wholeBytes l).length = 1 := by
  have hlength := lt_length_figures l
  rw [wholeBytes, List.length_take]
  rcases (l.places.getD 0 + 1 - (numeral l.digits).length).eq_zero_or_pos with hnone | hzeros
  · have hfigures : figures l = numeral l.digits := by
      rw [figures, hnone, List.replicate_zero, List.nil_append]
    rw [wholeBytes, List.head?_take, if_neg (by omega), hfigures] at hzero
    have hdigits : numeral l.digits = [0x30] := by
      rw [head?_numeral hzero]
      rfl
    rw [hdigits, List.length_singleton] at hnone
    rw [hfigures, hdigits, List.length_singleton]
    omega
  · rw [figures, List.length_append, List.length_replicate]
    omega

/-- The digits before and after the point are all digits. -/
theorem wholeBytes_append (l : Literal) : wholeBytes l ++ (fraction? l).getD [] = figures l := by
  unfold wholeBytes fraction?
  rcases l.places with _ | places
  · simp
  · exact List.take_append_drop _ _

theorem map_length_fraction? (l : Literal) : (fraction? l).map List.length = l.places := by
  have hlength := lt_length_figures l
  unfold fraction?
  rcases hplaces : l.places with _ | places
  · rfl
  · rw [hplaces, Option.getD_some] at hlength
    simp only [Option.map_some, List.length_drop]
    congr 1
    omega

theorem fraction?_digits {l : Literal} (hpoint : l.places ≠ some 0) :
    ∀ digits ∈ fraction? l, digits ≠ [] ∧ ∀ b ∈ digits, isDigit b = true := by
  intro digits hdigits
  have hlength := map_length_fraction? l
  rw [Option.mem_def.mp hdigits, Option.map_some] at hlength
  constructor
  · rintro rfl
    exact hpoint hlength.symm
  · intro b hb
    apply isDigit_figures l
    rw [← wholeBytes_append, Option.mem_def.mp hdigits]
    exact List.mem_append_right _ hb

/-- The exponent, or what follows the number, ends a run of digits, with or without a point. -/
theorem ends_exponentBytes (exponent : Option Int) (hrest : EndsNumber rest) :
    ∀ b ∈ (exponentBytes exponent ++ rest).head?, isDigit b = false ∧ b ≠ 0x2e := by
  intro b hb
  cases exponent with
  | none => exact ⟨(hrest b hb).1, (hrest b hb).2.1⟩
  | some e =>
    obtain rfl := Option.some.inj hb
    decide

theorem isDigit_wholeBytes (l : Literal) : ∀ b ∈ wholeBytes l, isDigit b = true :=
  fun b hb => isDigit_figures l b (List.mem_of_mem_take hb)

theorem wholeBytes_ne_nil (l : Literal) : wholeBytes l ≠ [] := by
  have hlength := lt_length_figures l
  rw [wholeBytes, ← List.length_pos_iff, List.length_take]
  omega

/-- A number begins with a minus sign or a digit. -/
theorem text_begins (l : Literal) : ∃ b tail,
    asciiBytes (l.text numberStyle.exponentSign) = b :: tail ∧ (b = 0x2d ∨ isDigit b = true) := by
  rw [text_bytes]
  cases l.negative with
  | true => exact ⟨0x2d, _, rfl, .inl rfl⟩
  | false =>
    obtain ⟨b, tail, hwhole⟩ := List.exists_cons_of_ne_nil (wholeBytes_ne_nil l)
    rw [hwhole]
    exact ⟨b, _, rfl, .inr (isDigit_wholeBytes l b (by simp [hwhole]))⟩

/-- A literal whose point is followed by digits is read back from its text. -/
theorem readNumber_text {l : Literal} (hpoint : l.places ≠ some 0) (hrest : EndsNumber rest) :
    readNumber (asciiBytes (l.text numberStyle.exponentSign) ++ rest) = some (l, rest) := by
  have hmark := ends_exponentBytes l.exponent hrest
  have hfraction := readFraction_fractionBytes (fraction?_digits hpoint) hmark
  have hwhole := isDigit_wholeBytes l
  have hne := wholeBytes_ne_nil l
  have htail : ∀ b ∈ (fractionBytes (fraction? l) ++ (exponentBytes l.exponent ++ rest)).head?,
      isDigit b = false := by
    intro b hb
    rcases hfraction? : fraction? l with _ | digits <;> rw [hfraction?] at hb
    · exact (hmark b hb).1
    · obtain rfl := Option.some.inj hb
      decide
  obtain ⟨htake, hdrop⟩ := span_digits hwhole htail
  have hzero : ¬((wholeBytes l).isEmpty ∨
      (wholeBytes l).head? = some 0x30 ∧ (wholeBytes l).length ≠ 1) := by
    rintro (hempty | ⟨hhead, hlength⟩)
    · exact hne (List.isEmpty_iff.mp hempty)
    · exact hlength (length_wholeBytes hhead)
  rw [text_bytes, List.append_assoc, List.append_assoc, List.append_assoc]
  generalize hbody : wholeBytes l ++ (fractionBytes (fraction? l) ++
    (exponentBytes l.exponent ++ rest)) = body at htake hdrop ⊢
  have hfirst : body.head? ≠ some 0x2d := by
    rw [← hbody, List.head?_append_of_ne_nil _ hne]
    intro hhead
    exact absurd (hwhole _ (List.mem_of_mem_head? hhead)) (by decide)
  unfold readNumber
  split
  rename_i negative unsigned hsign
  obtain ⟨rfl, rfl⟩ : l.negative = negative ∧ body = unsigned := by
    cases hnegative : l.negative with
    | false =>
      simp only [hnegative] at hsign
      split at hsign
      next heq => exact absurd (congrArg List.head? heq) hfirst
      next => exact Prod.mk.inj hsign
    | true =>
      simp only [hnegative] at hsign
      exact Prod.mk.inj hsign
  simp only [htake, hdrop, if_neg hzero, hfraction, readExponent_exponentBytes l.exponent hrest,
    wholeBytes_append, digitsValue_figures, map_length_fraction?, Option.bind_eq_bind,
    Option.bind_some]

end TraceReplay.Json
