import TraceReplay.Output.Lines
import TraceReplay.Proofs.Json.Document

/-!
# JSON lines are told apart

No text of a tree has a control character in it, strings included, because those are escaped.  So
the line feeds of a file of JSON lines are the ones that end its lines, and the lines are read back
as the trees they were written for.
-/

namespace TraceReplay

namespace Json

variable {bytes others input : Bytes}

/-! ## Control characters -/

/-- Bytes none of which is a control character. -/
def Printable (bytes : Bytes) : Prop := ∀ b ∈ bytes, ¬b < 0x20

theorem printable_nil : Printable [] := fun _ hb => absurd hb List.not_mem_nil

theorem Printable.cons {b : UInt8} (hb : ¬b < 0x20) (hbytes : Printable bytes) :
    Printable (b :: bytes) :=
  List.forall_mem_cons.mpr ⟨hb, hbytes⟩

theorem Printable.append (hbytes : Printable bytes) (hothers : Printable others) :
    Printable (bytes ++ others) :=
  List.forall_mem_append.mpr ⟨hbytes, hothers⟩

theorem Printable.not_mem_lineFeed (hbytes : Printable bytes) : (0x0a : UInt8) ∉ bytes :=
  fun hmem => hbytes _ hmem (by decide)

theorem not_control_of_hexDigit? {b : UInt8} (hdigit : (hexDigit? b).isSome) : ¬b < 0x20 := by
  unfold hexDigit? at hdigit
  simp only [UInt8.le_iff_toNat_le, UInt8.lt_iff_toNat_lt, UInt8.reduceToNat] at hdigit ⊢
  split_ifs at hdigit <;> first | omega | exact absurd hdigit (by decide)

theorem printable_of_hexUnit? {a b c d : UInt8} (hunit : (hexUnit? a b c d).isSome) :
    Printable [a, b, c, d] := by
  obtain ⟨n, hunit⟩ := Option.isSome_iff_exists.mp hunit
  simp only [hexUnit?, Option.bind_eq_bind, Option.bind_eq_some_iff] at hunit
  obtain ⟨_, ha, _, hb, _, hc, _, hd, -⟩ := hunit
  have hprintable {b : UInt8} {n : Nat} (hdigit : hexDigit? b = some n) : ¬b < 0x20 :=
    not_control_of_hexDigit? (Option.isSome_of_eq_some hdigit)
  exact .cons (hprintable ha) (.cons (hprintable hb)
    (.cons (hprintable hc) (.cons (hprintable hd) printable_nil)))

theorem not_control_of_shortEscapes {e : UInt8} (hescape : (shortEscapes.lookup e).isSome) :
    ¬e < 0x20 := by
  intro hcontrol
  have hnone : shortEscapes.lookup e = none := by
    have hne {key : UInt8} (hkey : ¬key < 0x20) : (e == key) = false := by
      rw [beq_eq_false_iff_ne]
      rintro rfl
      exact hkey hcontrol
    simp [shortEscapes, List.lookup_cons, hne]
  rw [hnone] at hescape
  exact absurd hescape (by decide)

/-- The body of a string has no control character in it as it is written. -/
theorem printable_of_readBody {body tail : Bytes} (hread : readBody input = some (body, tail)) :
    Printable body := by
  fun_induction readBody input generalizing body
  case case2 =>
    obtain ⟨rfl, -⟩ := Prod.mk.inj (Option.some.inj hread)
    exact printable_nil
  case case4 hcontrol _ ih =>
    obtain ⟨⟨inner, tail⟩, hinner, hbody⟩ := Option.map_eq_some_iff.mp hread
    obtain ⟨rfl, rfl⟩ := Prod.mk.inj hbody
    exact .cons hcontrol (ih hinner)
  case case5 hcontrol _ a b d e _ hunit ih =>
    obtain ⟨⟨inner, tail⟩, hinner, hbody⟩ := Option.map_eq_some_iff.mp hread
    obtain ⟨rfl, rfl⟩ := Prod.mk.inj hbody
    exact .cons hcontrol (.cons (by decide) ((printable_of_hexUnit? hunit).append (ih hinner)))
  case case7 hcontrol _ e _ _ hescape ih =>
    obtain ⟨⟨inner, tail⟩, hinner, hbody⟩ := Option.map_eq_some_iff.mp hread
    obtain ⟨rfl, rfl⟩ := Prod.mk.inj hbody
    exact .cons hcontrol (.cons (not_control_of_shortEscapes hescape) (ih hinner))
  all_goals exact absurd hread nofun

theorem Closed.printable {body : Bytes} (hbody : Closed body) : Printable body :=
  printable_of_readBody (hbody [])

theorem printable_digits (hdigits : ∀ b ∈ bytes, isDigit b = true) : Printable bytes := by
  intro b hb
  have hdigit := hdigits b hb
  simp only [isDigit, Bool.and_eq_true, decide_eq_true_eq, UInt8.le_iff_toNat_le,
    UInt8.lt_iff_toNat_lt, UInt8.reduceToNat] at hdigit ⊢
  omega

theorem printable_number (l : Decimal.Literal) : Printable (scalar (.number l)) := by
  have hsign : Printable (if l.negative then [0x2d] else []) := by
    split
    · exact .cons (by decide) printable_nil
    · exact printable_nil
  have hfraction : Printable (fractionBytes (fraction? l)) := by
    unfold fraction?
    cases l.places with
    | none => exact printable_nil
    | some places =>
      exact .cons (by decide)
        (printable_digits fun b hb => isDigit_figures l b (List.mem_of_mem_drop hb))
  have hexponent : Printable (exponentBytes l.exponent) := by
    cases l.exponent with
    | none => exact printable_nil
    | some e =>
      exact .cons (by decide) (.cons (by split <;> decide) (printable_digits (isDigit_numeral _)))
  change Printable (asciiBytes (l.text numberStyle.exponentSign))
  rw [text_bytes]
  exact hsign.append ((printable_digits (isDigit_wholeBytes l)).append
    (hfraction.append hexponent))

theorem printable_joined {parts : List Bytes} (hparts : ∀ part ∈ parts, Printable part) :
    Printable (joined [] parts) := by
  induction parts with
  | nil => exact printable_nil
  | cons part parts ih =>
    have hpart := hparts part List.mem_cons_self
    cases parts with
    | nil => exact hpart
    | cons next parts =>
      exact hpart.append (.cons (by decide)
        (ih fun part hpart => hparts part (List.mem_cons_of_mem _ hpart)))

theorem Closed.printable_quoted {body : Bytes} (hbody : Closed body) : Printable (quoted body) :=
  .cons (by decide) (hbody.printable.append (.cons (by decide) printable_nil))

/-- A compact text has no control character in it. -/
theorem Writable.printable_compact {value : Json} (hwritable : Writable value) :
    Printable (compact value) := by
  obtain ⟨hnull, htrue, hfalse⟩ := asciiBytes_words
  induction hwritable with
  | null =>
    change Printable (asciiBytes "null")
    simp [Printable, hnull]
  | bool b =>
    change Printable (asciiBytes (if b then "true" else "false"))
    cases b <;> simp [Printable, htrue, hfalse]
  | @number l _ => exact printable_number l
  | string hbody => exact hbody.printable_quoted
  | @array items _ ih =>
    change Printable (0x5b :: (compactItems items ++ [0x5d]))
    rw [compactItems_eq_joined]
    refine .cons (by decide) ((printable_joined fun part hpart => ?_).append
      (.cons (by decide) printable_nil))
    obtain ⟨item, hitem, rfl⟩ := List.mem_map.mp hpart
    exact ih item hitem
  | @object members hkeys _ ih =>
    change Printable (0x7b :: (compactMembers members ++ [0x7d]))
    rw [compactMembers_eq_joined]
    refine .cons (by decide) ((printable_joined fun part hpart => ?_).append
      (.cons (by decide) printable_nil))
    obtain ⟨member, hmember, rfl⟩ := List.mem_map.mp hpart
    exact (hkeys member hmember).printable_quoted.append (.cons (by decide) (ih member hmember))

end Json

namespace Lines

open Json

variable {values others : List Json}

/-! ## Lines -/

/-- Between the line feeds of a text stand the compact texts of its trees, with nothing after the
last. -/
theorem splitOn_write (hvalues : ∀ value ∈ values, Writable value) :
    (write values).splitOn 0x0a = values.map compact ++ [[]] := by
  induction values with
  | nil => rfl
  | cons value values ih =>
    have hline : (compact value).splitOn 0x0a = [compact value] := List.splitOn_eq_singleton
      (hvalues value List.mem_cons_self).printable_compact.not_mem_lineFeed
    have hothers := ih fun value hvalue => hvalues value (List.mem_cons_of_mem _ hvalue)
    rw [write, List.flatMap_cons, writeLine, List.append_assoc, List.singleton_append,
      List.splitOn_append_cons_self, hline]
    exact congrArg (compact value :: ·) hothers

/-- The trees of a text of lines, if each of its lines is one. -/
def read (text : Bytes) : Option (List Json) := (text.splitOn 0x0a).dropLast.mapM parse

/-- The lines of a text are read back as the trees they were written for. -/
theorem read_write (hvalues : ∀ value ∈ values, Writable value) :
    read (write values) = some values := by
  rw [read, splitOn_write hvalues, List.dropLast_concat]
  induction values with
  | nil => rfl
  | cons value values ih =>
    rw [List.map_cons, List.mapM_cons, parse_compact (hvalues value List.mem_cons_self),
      ih fun value hvalue => hvalues value (List.mem_cons_of_mem _ hvalue)]
    rfl

theorem write_inj (hvalues : ∀ value ∈ values, Writable value)
    (hothers : ∀ value ∈ others, Writable value) (heq : write values = write others) :
    values = others := by
  have hread := congrArg read heq
  rw [read_write hvalues, read_write hothers] at hread
  exact Option.some.inj hread

end Lines
end TraceReplay
