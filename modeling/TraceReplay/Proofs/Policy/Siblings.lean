import TraceReplay.Proofs.Policy.Grouping

/-!
# Siblings of the driven functions

Groups are built up one function after the other and looked up again by name.  Whatever the
order of the list, a group is found for each of its functions, and it is what a search of the
whole list for the same logical name finds.  So assignments are those of such a search, in the
order of the list.
-/

namespace TraceReplay

variable {functions : List Function}

/-! ## Groups are found -/

namespace Groups

theorem isSome_lookup_add (groups : Groups) (f : Function) (key : String) :
    ((groups.add f).lookup key).isSome ↔ f.logicalName = key ∨ (groups.lookup key).isSome := by
  induction groups with
  | nil =>
    by_cases hkey : f.logicalName = key
    · simp [add, hkey]
    · simp [add, List.lookup_cons, hkey, beq_eq_false_iff_ne.mpr (Ne.symm hkey)]
  | cons group groups ih =>
    obtain ⟨name, members⟩ := group
    rw [add]
    split
    case isTrue hown =>
      by_cases hkey : key = name
      · simp [hkey, ← hown]
      · simp [List.lookup_cons, beq_eq_false_iff_ne.mpr hkey, ← hown, Ne.symm hkey]
    case isFalse hother =>
      by_cases hkey : key = name
      · simp [hkey]
      · simpa [List.lookup_cons, beq_eq_false_iff_ne.mpr hkey] using ih

theorem isSome_lookup_ofList (functions : List Function) (key : String) :
    ((ofList functions).lookup key).isSome ↔ ∃ f ∈ functions, f.logicalName = key := by
  induction functions using List.reverseRecOn with
  | nil => simp [ofList]
  | append_singleton functions f ih =>
    rw [ofList, List.foldl_concat, ← ofList, isSome_lookup_add, ih]
    simp [or_and_right, exists_or, or_comm]

/-- Every function of a list finds its group, which holds all functions of its name. -/
theorem lookup_ofList {f : Function} (hf : f ∈ functions) :
    (ofList functions).lookup f.logicalName =
      some (functions.filter (·.logicalName = f.logicalName)) := by
  have hfound := (isSome_lookup_ofList functions f.logicalName).mpr ⟨f, hf, rfl⟩
  obtain ⟨group, hgroup⟩ := Option.isSome_iff_exists.mp hfound
  rw [← members_ofList, members, hgroup]
  rfl

end Groups

/-! ## Assignments -/

/-- The functions that are grouped with one of a list. -/
def SiblingGrouping.siblings (grouping : SiblingGrouping) (functions : List Function)
    (f : Function) : List Function :=
  match grouping with
  | .all => functions
  | _ => functions.filter (·.logicalName = f.logicalName)

/-- Assignments come in the order of the list, each with the siblings that a search finds. -/
theorem assignDrivers_eq (functions : List Function) (grouping : SiblingGrouping) :
    assignDrivers functions grouping =
      (functions.zipIdx.filter (grouping.drives ·.2)).map fun place =>
        ⟨place.2, grouping.siblings functions place.1⟩ := by
  have hgrouped : functions.zipIdx.filterMap (fun place => if grouping.drives place.2 then
      some (⟨place.2, (Groups.ofList functions).members place.1.logicalName⟩ : Assignment)
        else none) =
      (functions.zipIdx.filter (grouping.drives ·.2)).map fun place =>
        ⟨place.2, functions.filter (·.logicalName = place.1.logicalName)⟩ := by
    rw [← List.filterMap_eq_filter, List.map_filterMap]
    congr 1
    funext place
    rw [Groups.members_ofList]
    by_cases hdriven : grouping.drives place.2 <;> simp [hdriven, Option.guard]
  cases grouping with
  | all =>
    have hdriven : functions.zipIdx.filter (SiblingGrouping.all.drives ·.2) = functions.zipIdx :=
      List.filter_eq_self.mpr fun _ _ => rfl
    rw [hdriven]
    rfl
  | gpuVariants => exact hgrouped
  | serverfulCopies replicas => exact hgrouped

/-- A function that is driven wherever it stands has its assignment where it stands. -/
theorem getElem?_assignDrivers {grouping : SiblingGrouping}
    (hdrives : ∀ index, grouping.drives index = true) (index : Nat) :
    (assignDrivers functions grouping)[index]? =
      functions[index]?.map fun f => ⟨index, grouping.siblings functions f⟩ := by
  have hdriven : functions.zipIdx.filter (grouping.drives ·.2) = functions.zipIdx :=
    List.filter_eq_self.mpr fun place _ => hdrives place.2
  rw [assignDrivers_eq, hdriven, List.getElem?_map, List.getElem?_zipIdx, Option.map_map]
  simp [Function.comp_def]

theorem assignDrivers_serverfulCopies (functions : List Function) (replicas : Nat) :
    assignDrivers functions (.serverfulCopies replicas) =
      (assignDrivers functions .gpuVariants).filter (·.index % max replicas 1 = 0) := by
  rw [assignDrivers_eq, assignDrivers_eq, List.filter_map, List.filter_filter]
  simp [SiblingGrouping.drives, SiblingGrouping.siblings]

theorem pairwise_index (functions : List Function) (grouping : SiblingGrouping) :
    (assignDrivers functions grouping).Pairwise fun a b => a.index < b.index := by
  have hplaces : functions.zipIdx.Pairwise fun a b => a.2 < b.2 := by
    have hrange : (functions.zipIdx.map Prod.snd).Pairwise (· < ·) := by
      rw [List.zipIdx_map_snd]
      exact List.pairwise_lt_range'
    exact List.pairwise_map.mp hrange
  rw [assignDrivers_eq, List.pairwise_map]
  exact hplaces.filter _

/-- If all functions are grouped together, each drives with the whole list.  Otherwise each that
drives does so with those of its logical name, itself among them, as often and in the order in
which they stand in the list; its group is always found. -/
theorem siblings_exact (functions : List Function) :
    (∀ index : Nat, (assignDrivers functions .all)[index]? =
      functions[index]?.map fun _ => ⟨index, functions⟩) ∧
    (∀ index : Nat, (assignDrivers functions .gpuVariants)[index]? =
      functions[index]?.map fun f =>
        ⟨index, functions.filter (·.logicalName = f.logicalName)⟩) ∧
    (∀ replicas, assignDrivers functions (.serverfulCopies replicas) =
      (assignDrivers functions .gpuVariants).filter (·.index % max replicas 1 = 0)) ∧
    (∀ grouping ≠ .all, ∀ assignment ∈ assignDrivers functions grouping,
      ∃ f, functions[assignment.index]? = some f ∧
        assignment.siblings = functions.filter (·.logicalName = f.logicalName) ∧
        f ∈ assignment.siblings) ∧
    (∀ grouping, (assignDrivers functions grouping).Pairwise fun a b => a.index < b.index) ∧
    ∀ f ∈ functions, (Groups.ofList functions).lookup f.logicalName =
      some (functions.filter (·.logicalName = f.logicalName)) := by
  refine ⟨getElem?_assignDrivers fun _ => rfl, getElem?_assignDrivers fun _ => rfl,
    assignDrivers_serverfulCopies functions, ?_, pairwise_index functions,
    fun f hf => Groups.lookup_ofList hf⟩
  intro grouping hgrouping assignment hmem
  obtain ⟨f, hplace, hsiblings⟩ := exists_siblings hgrouping hmem
  refine ⟨f, hplace, hsiblings, ?_⟩
  rw [hsiblings, List.mem_filter]
  exact ⟨List.mem_of_getElem? hplace, decide_eq_true rfl⟩

/-- Variants of two functions in turn, one of them twice. -/
def variantsInterleaved : List Function :=
  ["a-gpu-1", "b-gpu-1", "a-gpu-2", "a-gpu-1"].map calledOnce

theorem siblings_exact_interleaved :
    siblingNames variantsInterleaved .gpuVariants = [["a-gpu-1", "a-gpu-2", "a-gpu-1"],
      ["b-gpu-1"], ["a-gpu-1", "a-gpu-2", "a-gpu-1"], ["a-gpu-1", "a-gpu-2", "a-gpu-1"]] ∧
    (∃ assignment ∈ assignDrivers variantsInterleaved .gpuVariants, assignment.index = 2 ∧
      calledOnce "a-gpu-2" ∈ assignment.siblings) ∧
    (Groups.ofList variantsInterleaved).lookup (calledOnce "b-gpu-1").logicalName =
      some (variantsInterleaved.filter (·.logicalName = (calledOnce "b-gpu-1").logicalName)) := by
  obtain ⟨-, hvariants, -, hsiblings, -, hlookup⟩ := siblings_exact variantsInterleaved
  refine ⟨by decide +kernel, ?_, hlookup _ (by simp [variantsInterleaved])⟩
  have hmem := List.mem_of_getElem? (hvariants 2)
  obtain ⟨f, hplace, -, hown⟩ := hsiblings .gpuVariants nofun _ hmem
  obtain rfl : calledOnce "a-gpu-2" = f := Option.some.inj hplace
  exact ⟨_, hmem, rfl, hown⟩

end TraceReplay
