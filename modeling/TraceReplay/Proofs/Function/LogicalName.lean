import TraceReplay.Proofs.Function.Variant

/-!
# Logical names of variants

A name is cut at the first place where a separator occurs, and the GPU separator is tried
before the serverful one.  Two separators overlap in a dash only, the last of one and the first
of the other.  So the separator behind a base name is found where it stands, unless the base
name itself ends in a separator that lacks its last dash: then the cut moves into the base name.
-/

namespace TraceReplay

/-! ## The first place of a separator -/

section Split

variable {separator text front back : List Char}

theorem splitAtFirst_some (hsplit : splitAtFirst separator text = some (front, back)) :
    text = front ++ (separator ++ back) ∧
      ∀ front' back', text = front' ++ (separator ++ back') → front.length ≤ front'.length := by
  induction text generalizing front with
  | nil =>
    rw [splitAtFirst] at hsplit
    split at hsplit
    · obtain ⟨rfl, rfl⟩ := Prod.mk.inj (Option.some.inj hsplit)
      simp_all
    · exact absurd hsplit nofun
  | cons c rest ih =>
    rw [splitAtFirst] at hsplit
    split at hsplit
    case isTrue hprefix =>
      obtain ⟨rfl, rfl⟩ := Prod.mk.inj (Option.some.inj hsplit)
      obtain ⟨behind, hbehind⟩ := List.isPrefixOf_iff_prefix.mp hprefix
      simp [← hbehind]
    case isFalse hprefix =>
      obtain ⟨⟨before, behind⟩, hrest, hcut⟩ := Option.map_eq_some_iff.mp hsplit
      obtain ⟨rfl, rfl⟩ := Prod.mk.inj hcut
      obtain ⟨rfl, hfirst⟩ := ih hrest
      refine ⟨rfl, ?_⟩
      intro front' back' htext
      cases front' with
      | nil => exact absurd (List.isPrefixOf_iff_prefix.mpr ⟨back', htext.symm⟩) hprefix
      | cons c' front' =>
        have hrest' := hfirst front' back' (List.cons.inj htext).2
        simpa using hrest'

theorem splitAtFirst_eq_none_iff :
    splitAtFirst separator text = none ↔ ¬separator <:+: text := by
  induction text with
  | nil =>
    rw [splitAtFirst]
    split <;> simp_all
  | cons c rest ih =>
    rw [splitAtFirst, List.infix_cons_iff, ← List.isPrefixOf_iff_prefix]
    split <;> simp_all

/-- The place where a separator first occurs is the place of the cut. -/
theorem splitAtFirst_eq (htext : text = front ++ (separator ++ back))
    (hfirst : ∀ front' back', text = front' ++ (separator ++ back') →
      front.length ≤ front'.length) :
    splitAtFirst separator text = some (front, back) := by
  cases hsplit : splitAtFirst separator text with
  | none =>
    have hinfix : separator <:+: text := ⟨front, back, by rw [htext, List.append_assoc]⟩
    exact absurd hinfix (splitAtFirst_eq_none_iff.mp hsplit)
  | some cut =>
    obtain ⟨before, behind⟩ := cut
    obtain ⟨htext', hfirst'⟩ := splitAtFirst_some hsplit
    have hlength : before.length = front.length :=
      Nat.le_antisymm (hfirst' _ _ htext) (hfirst _ _ htext')
    obtain ⟨rfl, hbehind⟩ := List.append_inj (htext'.symm.trans htext) hlength
    rw [List.append_cancel_left hbehind]

end Split

/-! ## Variants -/

inductive VariantKind
  | gpu
  | serverful
deriving DecidableEq

namespace VariantKind

def separator : VariantKind → List Char
  | .gpu => gpuSeparator
  | .serverful => serverfulSeparator

/-- The name of a variant of a function. -/
def variant (kind : VariantKind) (base : String) (number : Nat) : String :=
  match kind with
  | .gpu => gpuVariant base number
  | .serverful => base ++ "-serverful-copy-" ++ toString number

/-- The separators that are looked for in a variant until its own is found. -/
def tried : VariantKind → List VariantKind
  | .gpu => [.gpu]
  | .serverful => [.gpu, .serverful]

/-- A base name that no separator occurs in. -/
def Plain (base : String) : Prop := ∀ kind : VariantKind, ¬kind.separator <:+: base.toList

/-- A base name does not end in a separator without its last dash, as far as separators are
looked for in its variants. -/
def Keeps (kind : VariantKind) (base : String) : Prop :=
  ∀ other ∈ kind.tried, ¬other.separator.dropLast <:+ base.toList

variable {kind other : VariantKind} {base front back : List Char} {name : String} {number : Nat}

theorem toList_variant (kind : VariantKind) (name : String) (number : Nat) :
    (kind.variant name number).toList =
      name.toList ++ (kind.separator ++ (toString number).toList) := by
  cases kind <;>
    · simp only [variant, gpuVariant, String.toList_append, List.append_assoc]
      rfl

theorem separator_eq_cons (kind : VariantKind) : kind.separator = '-' :: kind.separator.tail := by
  cases kind <;> rfl

theorem separator_eq_concat (kind : VariantKind) :
    kind.separator = kind.separator.dropLast ++ ['-'] := by
  cases kind <;> rfl

/-- A separator that is looked for overlaps the variant's own in one dash at most. -/
theorem overlap_of_tried (htried : other ∈ kind.tried) {overlap rest digits : List Char}
    (hend : other.separator = rest ++ overlap) (hrest : rest ≠ []) (hoverlap : overlap ≠ [])
    (hbegins : overlap <+: kind.separator ++ digits) : rest = other.separator.dropLast := by
  have hfits : ∀ kind other : VariantKind, other ∈ kind.tried →
      other.separator.length ≤ kind.separator.length := by
    rintro (_ | _) (_ | _) <;> decide
  have honly : ∀ kind other : VariantKind, other ∈ kind.tried → ∀ n < other.separator.length,
      0 < n → other.separator.drop n <+: kind.separator → n + 1 = other.separator.length := by
    rintro (_ | _) (_ | _) <;> decide +kernel
  have hlengths := congrArg List.length hend
  rw [List.length_append] at hlengths
  have hinside : overlap <+: kind.separator := by
    have hshort := hfits kind other htried
    exact List.prefix_of_prefix_length_le hbegins (List.prefix_append _ _) (by omega)
  have hdrop : other.separator.drop rest.length = overlap := by
    rw [hend, List.drop_left]
  have hlast := honly kind other htried rest.length
    (by have := List.length_pos_iff.mpr hoverlap; omega) (List.length_pos_iff.mpr hrest)
    (hdrop ▸ hinside)
  rw [List.dropLast_eq_take, ← hlast, Nat.add_sub_cancel, hend, List.take_left]

/-- Up to the separator behind the base name no other occurs, unless it begins in the base name
and ends with the first dash behind it. -/
theorem occurs_in_variant (htried : other ∈ kind.tried) (hplain : ¬other.separator <:+: base)
    {digits : List Char}
    (hoccurs : base ++ (kind.separator ++ digits) = front ++ (other.separator ++ back)) :
    base = front ++ other.separator.dropLast ∨ base.length ≤ front.length := by
  rcases List.append_eq_append_iff.mp hoccurs with ⟨gap, hfront, -⟩ | ⟨gap, hbase, hgap⟩
  · right
    simp [hfront]
  · rcases List.append_eq_append_iff.mp hgap with ⟨before, hinside, -⟩ | ⟨overlap, hend, hbegins⟩
    · exact absurd ⟨front, before, by rw [hbase, hinside, List.append_assoc]⟩ hplain
    · by_cases hgapNil : gap = []
      · right
        simp [hbase, hgapNil]
      · left
        have hne : overlap ≠ [] := by
          rintro rfl
          rw [List.append_nil] at hend
          exact hplain ⟨front, [], by simp [hbase, hend]⟩
        rw [hbase, overlap_of_tried htried hend hgapNil hne ⟨back, hbegins.symm⟩]

/-- A base name that ends in a separator without its last dash is cut there. -/
theorem splitAtFirst_of_suffix (htried : other ∈ kind.tried) (hplain : ¬other.separator <:+: base)
    (hsuffix : base = front ++ other.separator.dropLast) (digits : List Char) :
    splitAtFirst other.separator (base ++ (kind.separator ++ digits)) =
      some (front, kind.separator.tail ++ digits) := by
  apply splitAtFirst_eq
  · conv_lhs => rw [hsuffix, separator_eq_cons kind]
    conv_rhs => rw [separator_eq_concat other]
    simp
  · intro front' back' hoccurs
    have hlength := congrArg List.length hsuffix
    rw [List.length_append] at hlength
    rcases occurs_in_variant htried hplain hoccurs with hsuffix' | hbehind
    · have hlength' := congrArg List.length hsuffix'
      rw [List.length_append] at hlength'
      omega
    · omega

/-- Otherwise a variant is cut at its own separator. -/
theorem splitAtFirst_own (hplain : ¬kind.separator <:+: base)
    (hkept : ¬kind.separator.dropLast <:+ base) (digits : List Char) :
    splitAtFirst kind.separator (base ++ (kind.separator ++ digits)) = some (base, digits) := by
  apply splitAtFirst_eq rfl
  intro front' back' hoccurs
  have hown : kind ∈ kind.tried := by cases kind <;> decide
  rcases occurs_in_variant hown hplain hoccurs with hsuffix | hbehind
  · exact absurd ⟨front', hsuffix.symm⟩ hkept
  · exact hbehind

/-- Otherwise no GPU separator occurs in a serverful copy. -/
theorem splitAtFirst_gpu_serverful (hplain : ¬gpu.separator <:+: base)
    (hkept : ¬gpu.separator.dropLast <:+ base) :
    splitAtFirst gpu.separator (base ++ (serverful.separator ++ (toString number).toList)) =
      none := by
  rw [splitAtFirst_eq_none_iff]
  rintro ⟨front, back, hoccurs⟩
  rw [List.append_assoc] at hoccurs
  have htried : gpu ∈ serverful.tried := by decide
  rcases occurs_in_variant htried hplain hoccurs.symm with hsuffix | hbehind
  · exact hkept ⟨front, hsuffix.symm⟩
  -- The separator ends in a dash, and there is none among the digits.
  obtain ⟨between, rfl⟩ : base <+: front :=
    List.prefix_of_prefix_length_le ⟨_, hoccurs.symm⟩ (List.prefix_append _ _) hbehind
  have hrest : (between ++ gpu.separator) ++ back =
      serverful.separator ++ (toString number).toList := by
    rw [List.append_assoc] at hoccurs
    rw [List.append_assoc]
    exact List.append_cancel_left hoccurs
  rcases List.append_eq_append_iff.mp hrest with ⟨rest, hown, -⟩ | ⟨digits, hover, hdigits⟩
  · have hinfix : gpu.separator <:+: serverful.separator := ⟨between, rest, hown.symm⟩
    exact absurd hinfix (by decide)
  · rcases digits.eq_nil_or_concat' with rfl | ⟨others, last, rfl⟩
    · rw [List.append_nil] at hover
      have hinfix : gpu.separator <:+: serverful.separator := ⟨between, [], by simpa using hover⟩
      exact absurd hinfix (by decide)
    · rw [separator_eq_concat gpu, ← List.append_assoc, ← List.append_assoc] at hover
      obtain ⟨-, hdash⟩ := List.append_inj' hover rfl
      have hdigit : last ∈ (toString number).toList := by
        rw [hdigits]
        simp
      rw [← List.singleton_inj.mp hdash] at hdigit
      exact absurd (isDigit_of_mem_toString hdigit) (by decide)

theorem logicalName_eq (name : String) :
    logicalName name =
      ((splitAtFirst gpu.separator name.toList).or
        (splitAtFirst serverful.separator name.toList)).elim name (String.ofList ·.1) := by
  simp only [logicalName, separator]
  cases splitAtFirst gpuSeparator name.toList <;>
    cases splitAtFirst serverfulSeparator name.toList <;> rfl

/-- A variant has its base name as logical name exactly if the cut does not move into it. -/
theorem logicalName_variant_iff (hplain : Plain name) :
    logicalName (kind.variant name number) = name ↔ kind.Keeps name := by
  have hmoves (other : VariantKind) {stem : List Char}
      (hsuffix : stem ++ other.separator.dropLast = name.toList) : String.ofList stem ≠ name := by
    rintro rfl
    have hlength := congrArg List.length hsuffix
    have hpos : 0 < other.separator.dropLast.length := by cases other <;> decide
    rw [String.toList_ofList, List.length_append] at hlength
    omega
  rw [logicalName_eq, toList_variant]
  by_cases hgpu : gpu.separator.dropLast <:+ name.toList
  · obtain ⟨stem, hstem⟩ := hgpu
    have htried : gpu ∈ kind.tried := by cases kind <;> decide
    rw [splitAtFirst_of_suffix htried (hplain gpu) hstem.symm]
    exact iff_of_false (hmoves gpu hstem) fun hkeeps => hkeeps gpu htried ⟨stem, hstem⟩
  cases kind with
  | gpu =>
    rw [splitAtFirst_own (hplain gpu) hgpu]
    refine iff_of_true String.ofList_toList ?_
    simpa [Keeps, tried] using hgpu
  | serverful =>
    rw [splitAtFirst_gpu_serverful (hplain gpu) hgpu, Option.none_or]
    by_cases hown : serverful.separator.dropLast <:+ name.toList
    · obtain ⟨stem, hstem⟩ := hown
      have htried : serverful ∈ serverful.tried := by decide
      rw [splitAtFirst_of_suffix htried (hplain serverful) hstem.symm]
      exact iff_of_false (hmoves serverful hstem) fun hkeeps =>
        hkeeps serverful htried ⟨stem, hstem⟩
    · rw [splitAtFirst_own (hplain serverful) hown]
      refine iff_of_true String.ofList_toList ?_
      simpa [Keeps, tried] using And.intro hgpu hown

end VariantKind
end TraceReplay
