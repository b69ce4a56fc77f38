import TraceReplay.Function.File
import TraceReplay.Proofs.Decimal.Shortest
import TraceReplay.Proofs.Json.Tree

/-!
# Written documents are read back

Integers, finite doubles, texts, lists and records are written as trees from which they are read
again, and all of these trees can be written.
-/

namespace TraceReplay

/-! ## Fields -/

namespace Document

variable {ν : Type} {key other : String}

theorem lookup_nil (key : String) : lookup key ([] : List (String × ν)) = some none := rfl

/-- The value of a key that does not occur again. -/
theorem lookup_cons_self (value : ν) {entries : List (String × ν)}
    (honce : key ∉ entries.map Prod.fst) :
    lookup key ((key, value) :: entries) = some (some value) := by
  have hothers : entries.filter (·.1 == key) = [] := by
    rw [List.filter_eq_nil_iff]
    intro entry hentry hsame
    exact honce (List.mem_map.mpr ⟨entry, hentry, by simpa using hsame⟩)
  rw [lookup, List.filter_cons_of_pos (by simp), hothers]

theorem lookup_cons_ne (value : ν) (entries : List (String × ν)) (hne : key ≠ other) :
    lookup key ((other, value) :: entries) = lookup key entries := by
  rw [lookup, lookup, List.filter_cons_of_neg (by simpa using hne.symm)]

/-- Every item of a list that has been read was read. -/
theorem exists_of_mem_listOf {α : Type} [Document ν] {read : ν → Option α} {value : ν} {xs : List α}
    (hlist : listOf read value = some xs) {x : α} (hx : x ∈ xs) : ∃ item, read item = some x := by
  rw [listOf] at hlist
  obtain ⟨items, -, hitems⟩ := Option.bind_eq_some_iff.mp hlist
  clear hlist
  induction items generalizing xs with
  | nil =>
    obtain rfl := Option.some.inj hitems
    exact absurd hx List.not_mem_nil
  | cons item items ih =>
    rw [List.mapM_cons] at hitems
    obtain ⟨first, hfirst, hrest⟩ := Option.bind_eq_some_iff.mp hitems
    obtain ⟨others, hothers, hxs⟩ := Option.bind_eq_some_iff.mp hrest
    obtain rfl := Option.some.inj hxs
    rcases List.mem_cons.mp hx with rfl | hx
    · exact ⟨item, hfirst⟩
    · exact ih hx hothers

end Document

namespace Json

open Document

/-! ## Trees that can be written -/

theorem writable_ofInt (n : Int) : Writable (.ofInt n) := .number (by simp)

theorem writable_ofFloat (x : Float) : Writable (.ofFloat x) := by
  unfold ofFloat
  split
  · exact .number (numberStyle.literal_places _)
  · exact .null

theorem writable_ofText (s : String) : Writable (.ofText s) := .string (closed_encodeText s)

theorem writable_list {α : Type} {item : α → Json} (hitem : ∀ x, Writable (item x)) (xs : List α) :
    Writable (.list item xs) := by
  refine .array fun value hvalue => ?_
  obtain ⟨x, -, rfl⟩ := List.mem_map.mp hvalue
  exact hitem x

theorem writable_record {members : List (String × Json)}
    (hmembers : ∀ member ∈ members, Writable member.2) : Writable (.record members) := by
  refine .object (fun member hmember => ?_) (fun member hmember => ?_) <;>
    obtain ⟨⟨key, value⟩, hmem, rfl⟩ := List.mem_map.mp hmember
  · exact closed_encodeText key
  · exact hmembers _ hmem

/-! ## Values -/

theorem integer?_ofInt (n : Int) : integer? (Json.ofInt n) = some n := by
  change Decimal.Literal.toInt? ⟨n < 0, n.natAbs, none, none⟩ = some n
  rw [Decimal.Literal.toInt?, if_neg (by simp [Decimal.Literal.isIntegral])]
  dsimp only
  by_cases hnegative : n < 0
  · rw [if_pos (decide_eq_true hnegative), if_neg (by omega)]
    congr 1
    omega
  · rw [if_neg (by simpa using hnegative)]
    congr 1
    omega

theorem integerIn_ofInt {low high n : Int} (hlow : low ≤ n) (hhigh : n < high) :
    integerIn low high (Json.ofInt n) = some n := by
  rw [integerIn, integer?_ofInt]
  exact if_pos ⟨hlow, hhigh⟩

theorem naturalBelow_ofInt {high n : Nat} (hhigh : n < high) :
    naturalBelow high (Json.ofInt n) = some n := by
  rw [naturalBelow, integerIn_ofInt (by omega) (by omega), Option.map_some, Int.toNat_natCast]

theorem uint32?_ofUInt32 (n : UInt32) : uint32? (Json.ofUInt32 n) = some n := by
  rw [uint32?, ofUInt32, naturalBelow_ofInt n.toNat_lt, Option.map_some, UInt32.ofNat_toNat]

theorem uint64?_ofUInt64 (n : UInt64) : uint64? (Json.ofUInt64 n) = some n := by
  rw [uint64?, ofUInt64, naturalBelow_ofInt n.toNat_lt, Option.map_some, UInt64.ofNat_toNat]

theorem int64?_ofInt64 (n : Int64) : int64? (Json.ofInt64 n) = some n := by
  rw [int64?, ofInt64, integerIn_ofInt n.le_toInt n.toInt_lt, Option.map_some, Int64.ofInt_toInt]

theorem real?_ofFloat {x : Float} (hfinite : (Binary64.ofFloat? x).isSome) :
    real? (Json.ofFloat x) = some x := by
  obtain ⟨parts, hparts⟩ := Option.isSome_iff_exists.mp hfinite
  rw [ofFloat, hparts]
  exact numberStyle.toFloat?_literal hparts

/-- A number that can be read as a double is read as a finite one. -/
theorem isSome_ofFloat?_of_real? {value : Json} {x : Float} (hread : real? value = some x) :
    (Binary64.ofFloat? x).isSome := by
  cases value with
  | number literal =>
    change literal.toFloat? = some x at hread
    simp only [Decimal.Literal.toFloat?] at hread
    split at hread
    next hfinite =>
      obtain rfl := Option.some.inj hread
      exact Binary64.isSome_ofFloat?_assemble _ hfinite
    next => exact absurd hread (by simp)
  | _ => exact absurd hread.symm (Option.some_ne_none x)

theorem text?_ofText (s : String) : Document.text? (Json.ofText s) = some s :=
  decodeText_encodeText s

theorem ofText_injective : Function.Injective Json.ofText := by
  intro s t heq
  have hread := congrArg Document.text? heq
  rw [text?_ofText, text?_ofText] at hread
  exact Option.some.inj hread

theorem listOf_list {α : Type} {item : α → Json} {read : Json → Option α} {xs : List α}
    (hread : ∀ x ∈ xs, read (item x) = some x) : listOf read (Json.list item xs) = some xs := by
  change (xs.map item).mapM read = some xs
  induction xs with
  | nil => rfl
  | cons x xs ih =>
    rw [List.map_cons, List.mapM_cons, hread x List.mem_cons_self,
      ih fun x hx => hread x (List.mem_cons_of_mem _ hx)]
    rfl

theorem list_ofInt_injective : Function.Injective (Json.list Json.ofInt) := by
  intro xs ys heq
  have hread (xs : List Int) : listOf integer? (Json.list .ofInt xs) = some xs :=
    listOf_list fun n _ => integer?_ofInt n
  have hsame := congrArg (listOf integer?) heq
  rw [hread, hread] at hsame
  exact Option.some.inj hsame

/-- A record has the members it is written with. -/
theorem fields_record (names : List String) (members : List (String × Json)) :
    fields names (Json.record members) = names.mapM (Document.lookup · members) := by
  have hentries : Document.entries? (Json.record members) = some members := by
    simp only [Document.entries?, Json.entries?, Json.record]
    induction members with
    | nil => rfl
    | cons member members ih =>
      rw [List.map_cons, List.mapM_cons, ih, decodeText_encodeText]
      rfl
  rw [fields, hentries]

end Json
end TraceReplay
