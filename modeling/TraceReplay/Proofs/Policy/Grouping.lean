import TraceReplay.Policy.Assignment
import TraceReplay.Proofs.Function.LogicalName

/-!
# Groups of siblings

The siblings of a driven function are the functions that share its logical name, in their
order.  Two variants are therefore siblings exactly if they have one base name, provided that
no cut moves into a base name; where it does, variants of different functions meet.
-/

namespace TraceReplay

/-! ## Groups by logical name -/

namespace Groups

theorem members_add (groups : Groups) (f : Function) (key : String) :
    (groups.add f).members key =
      groups.members key ++ if f.logicalName = key then [f] else [] := by
  induction groups with
  | nil =>
    by_cases hkey : f.logicalName = key
    · subst hkey
      simp [add, members]
    · simp [add, members, hkey, List.lookup, beq_eq_false_iff_ne.mpr (Ne.symm hkey)]
  | cons group groups ih =>
    obtain ⟨name, others⟩ := group
    simp only [members] at ih ⊢
    rw [add]
    split
    case isTrue hown =>
      by_cases hkey : key = name
      · simp [hkey, ← hown]
      · simp [List.lookup_cons, beq_eq_false_iff_ne.mpr hkey, ← hown, Ne.symm hkey]
    case isFalse hother =>
      by_cases hkey : key = name
      · simp [hkey, Ne.symm hother]
      · simpa [List.lookup_cons, beq_eq_false_iff_ne.mpr hkey] using ih

/-- A group holds the functions of its logical name, in their order. -/
theorem members_ofList (functions : List Function) (key : String) :
    (ofList functions).members key = functions.filter (·.logicalName = key) := by
  induction functions using List.reverseRecOn with
  | nil => rfl
  | append_singleton functions f ih =>
    rw [ofList, List.foldl_concat, ← ofList, members_add, ih, List.filter_append]
    by_cases hkey : f.logicalName = key <;> simp [hkey]

end Groups

/-- Unless all functions are grouped together, the siblings of an assignment are the functions
that share the logical name of the driven one. -/
theorem exists_siblings {functions : List Function} {grouping : SiblingGrouping}
    {assignment : Assignment} (hgrouping : grouping ≠ .all)
    (hmem : assignment ∈ assignDrivers functions grouping) :
    ∃ f, functions[assignment.index]? = some f ∧
      assignment.siblings = functions.filter (·.logicalName = f.logicalName) := by
  have hassigned : assignDrivers functions grouping = functions.zipIdx.filterMap fun place =>
      if grouping.drives place.2 then
        some ⟨place.2, (Groups.ofList functions).members place.1.logicalName⟩ else none := by
    cases grouping with
    | all => exact absurd rfl hgrouping
    | gpuVariants => rfl
    | serverfulCopies => rfl
  rw [hassigned] at hmem
  obtain ⟨⟨f, index⟩, hplace, hdriven⟩ := List.mem_filterMap.mp hmem
  obtain ⟨-, hown⟩ := Option.ite_none_right_eq_some.mp hdriven
  obtain rfl := Option.some.inj hown
  exact ⟨f, List.mem_zipIdx_iff_getElem?.mp hplace, Groups.members_ofList functions f.logicalName⟩

/-! ## Groups of variants -/

open VariantKind (Plain)

/-- A variant has its base name as logical name exactly if the base name does not end in a
separator that lacks its last dash.  Among such variants one base name makes one group. -/
theorem variant_grouped_iff (kind kind' : VariantKind) (number number' : Nat)
    {base base' : String} (hplain : Plain base) (hplain' : Plain base') :
    (logicalName (kind.variant base number) = base ↔ kind.Keeps base) ∧
      (kind.Keeps base → kind'.Keeps base' → ∀ (functions : List Function) (f g : Function),
        f ∈ functions → g ∈ functions →
          f.name = kind.variant base number → g.name = kind'.variant base' number' →
            (g ∈ (Groups.ofList functions).members f.logicalName ↔ base = base') ∧
              ∀ grouping assignment, grouping ≠ .all →
                assignment ∈ assignDrivers functions grouping → f ∈ assignment.siblings →
                  (g ∈ assignment.siblings ↔ base = base')) := by
  refine ⟨VariantKind.logicalName_variant_iff hplain, ?_⟩
  intro hkeeps hkeeps' functions f g hf hg hname hname'
  have hlogical : f.logicalName = base := by
    rw [Function.logicalName, hname]
    exact (VariantKind.logicalName_variant_iff hplain).mpr hkeeps
  have hlogical' : g.logicalName = base' := by
    rw [Function.logicalName, hname']
    exact (VariantKind.logicalName_variant_iff hplain').mpr hkeeps'
  constructor
  · rw [Groups.members_ofList, List.mem_filter, hlogical, hlogical', decide_eq_true_iff]
    exact ⟨fun hgroup => hgroup.2.symm, fun hbase => ⟨hg, hbase.symm⟩⟩
  · intro grouping assignment hgrouping hmem hsibling
    obtain ⟨driven, -, hsiblings⟩ := exists_siblings hgrouping hmem
    rw [hsiblings, List.mem_filter, decide_eq_true_iff] at hsibling ⊢
    rw [← hsibling.2, hlogical, hlogical']
    exact ⟨fun hgroup => hgroup.2.symm, fun hbase => ⟨hg, hbase.symm⟩⟩

/-! ## Variants of two functions -/

/-- The names of the siblings in the assignments of some functions. -/
def siblingNames (functions : List Function) (grouping : SiblingGrouping) : List (List String) :=
  (assignDrivers functions grouping).map fun assignment => assignment.siblings.map (·.name)

/-- A function with one invocation. -/
def calledOnce (name : String) : Function := { name := name, invocationStats := [1] }

/-- A variant of either kind of one function, and a variant of another. -/
def variantsOfTwo : List Function :=
  ["bert-gpu-4", "bert-serverful-copy-0", "vgg-gpu-4"].map calledOnce

/-- A variant of a function whose name ends in the beginning of a separator, and a variant of
the function that it is taken for. -/
def variantsOverlapping : List Function := ["x-gpu-gpu-4", "x-gpu-2"].map calledOnce

theorem plain_of_separators {name : String} (hgpu : ¬gpuSeparator <:+: name.toList)
    (hserverful : ¬serverfulSeparator <:+: name.toList) : Plain name := by
  rintro (_ | _)
  · exact hgpu
  · exact hserverful

theorem variant_grouped_bert :
    (Plain "bert" ∧ Plain "vgg") ∧
      (VariantKind.gpu.Keeps "bert" ∧ VariantKind.serverful.Keeps "bert" ∧
        VariantKind.gpu.Keeps "vgg") ∧
      logicalName (VariantKind.serverful.variant "bert" 0) = "bert" ∧
      siblingNames variantsOfTwo .gpuVariants = [["bert-gpu-4", "bert-serverful-copy-0"],
        ["bert-gpu-4", "bert-serverful-copy-0"], ["vgg-gpu-4"]] ∧
      ∀ assignment ∈ assignDrivers variantsOfTwo .gpuVariants,
        calledOnce "bert-gpu-4" ∈ assignment.siblings →
          calledOnce "bert-serverful-copy-0" ∈ assignment.siblings ∧
            calledOnce "vgg-gpu-4" ∉ assignment.siblings := by
  have hbert : Plain "bert" := plain_of_separators (by decide +kernel) (by decide +kernel)
  have hvgg : Plain "vgg" := plain_of_separators (by decide +kernel) (by decide +kernel)
  have hkeeps : VariantKind.gpu.Keeps "bert" ∧ VariantKind.serverful.Keeps "bert" ∧
      VariantKind.gpu.Keeps "vgg" := by
    unfold VariantKind.Keeps
    decide +kernel
  obtain ⟨hgpu, hserverful, hother⟩ := hkeeps
  have hlogical := (variant_grouped_iff .serverful .gpu 0 4 hbert hvgg).1
  refine ⟨⟨hbert, hvgg⟩, ⟨hgpu, hserverful, hother⟩, hlogical.mpr hserverful, by decide +kernel, ?_⟩
  intro assignment hmem hsibling
  have hcopy := ((variant_grouped_iff .gpu .serverful 4 0 hbert hbert).2 hgpu hserverful
    variantsOfTwo _ (calledOnce "bert-serverful-copy-0") (by simp [variantsOfTwo])
    (by simp [variantsOfTwo]) (by decide +kernel) (by decide +kernel)).2 .gpuVariants _
      nofun hmem hsibling
  have hvariant := ((variant_grouped_iff .gpu .gpu 4 4 hbert hvgg).2 hgpu hother
    variantsOfTwo _ (calledOnce "vgg-gpu-4") (by simp [variantsOfTwo])
    (by simp [variantsOfTwo]) (by decide +kernel) (by decide +kernel)).2 .gpuVariants _
      nofun hmem hsibling
  exact ⟨hcopy.mpr rfl, fun hsame => absurd (hvariant.mp hsame) (by decide)⟩

/-- The variant of `x-gpu` is taken for one of `x`: both are siblings. -/
theorem not_variant_grouped_overlapping :
    (Plain "x-gpu" ∧ Plain "x") ∧
      (calledOnce "x-gpu-gpu-4").name = VariantKind.gpu.variant "x-gpu" 4 ∧
      (calledOnce "x-gpu-2").name = VariantKind.gpu.variant "x" 2 ∧
      logicalName (VariantKind.gpu.variant "x-gpu" 4) ≠ "x-gpu" ∧
      siblingNames variantsOverlapping .gpuVariants =
        [["x-gpu-gpu-4", "x-gpu-2"], ["x-gpu-gpu-4", "x-gpu-2"]] :=
  ⟨⟨plain_of_separators (by decide +kernel) (by decide +kernel),
    plain_of_separators (by decide +kernel) (by decide +kernel)⟩, by decide +kernel,
    by decide +kernel, by decide +kernel, by decide +kernel⟩

end TraceReplay
