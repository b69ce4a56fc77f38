import TraceReplay.Power

/-!
# Documents

What the formats of this project's input files have in common: a value read as a
number, a text, a list, or a record with known fields.  A record may be written
as a mapping, in any order and with unknown keys, or as the list of its fields in
their declared order; either way each field is present or missing.
-/

namespace TraceReplay

/-- How a format reads its values.  `entries?` gives a mapping with the text of
its keys, `variant?` the name of a choice without data, told which names there are. -/
class Document (ν : Type) where
  entries? : ν → Option (List (String × ν))
  items? : ν → Option (List ν)
  integer? : ν → Option Int
  real? : ν → Option Float
  truth? : ν → Option Bool
  text? : ν → Option String
  variant? : List String → ν → Option String
  isNull : ν → Bool

namespace Document

variable {ν : Type} [Document ν]

/-- The value of a key that may occur once; the outer option is empty if it
occurs more than once. -/
def lookup (key : String) (entries : List (String × ν)) : Option (Option ν) :=
  match entries.filter (·.1 == key) with
  | [] => some none
  | [(_, value)] => some (some value)
  | _ => none

/-- The fields of a record, in the order of their names. -/
def fields (names : List String) (value : ν) : Option (List (Option ν)) :=
  match entries? value with
  | some entries => names.mapM (lookup · entries)
  | none =>
    match items? value with
    | some items =>
      if items.length ≤ names.length then
        some (items.map some ++ List.replicate (names.length - items.length) none)
      else none
    | none => none

/-- A field that has to be there. -/
def required {α : Type} (read : ν → Option α) : Option ν → Option α
  | some value => read value
  | none => none

/-- A field with a value to fall back on if it is missing. -/
def withDefault {α : Type} (read : ν → Option α) (fallback : α) : Option ν → Option α
  | some value => read value
  | none => some fallback

/-- A field that may be missing or null. -/
def optional {α : Type} (read : ν → Option α) : Option ν → Option (Option α)
  | some value => if isNull value then some none else (read value).map some
  | none => some none

def listOf {α : Type} (read : ν → Option α) (value : ν) : Option (List α) := do
  (← items? value).mapM read

/-- An integer of at least `low` and less than `high`. -/
def integerIn (low high : Int) (value : ν) : Option Int := do
  let n ← integer? value
  if low ≤ n ∧ n < high then some n else none

def naturalBelow (high : Nat) (value : ν) : Option Nat :=
  (integerIn 0 high value).map Int.toNat

def uint32? (value : ν) : Option UInt32 := (naturalBelow (2 ^ 32) value).map UInt32.ofNat
def uint64? (value : ν) : Option UInt64 := (naturalBelow (2 ^ 64) value).map UInt64.ofNat
def int64? (value : ν) : Option Int64 := (integerIn (-2 ^ 63) (2 ^ 63) value).map Int64.ofInt

end Document
end TraceReplay
