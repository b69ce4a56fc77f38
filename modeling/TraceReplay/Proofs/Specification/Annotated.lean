import TraceReplay.Proofs.Driver.Invariant
import TraceReplay.Proofs.Specification.Fits

/-!
# Annotated specifications

A replay writes nothing into a specification but statistics, and these only at slots that go
to the invoker and for which the function has all three.
-/

namespace TraceReplay

namespace Specification

/-- The specification without its statistics. -/
def unannotated (s : Specification) : Specification :=
  { s with slots := s.slots.map (·.map fun slot => { slot with stats := none }) }

/-- The statistics at a slot, none if there is no such slot. -/
def stats? (s : Specification) (step slot : Nat) : Option ModeStats :=
  (s.slot? step slot).bind (·.stats)

/-- A change that cannot be seen in the values of a list leaves these as they are. -/
theorem map_modify_same {α β : Type} {g : α → β} {change : α → α}
    (hsame : ∀ x, g (change x) = g x) (xs : List α) (index : Nat) :
    (xs.modify index change).map g = xs.map g := by
  apply List.ext_getElem?
  intro other
  rw [List.getElem?_map, List.getElem?_map, List.getElem?_modify]
  cases xs[other]? with
  | none => rfl
  | some x => by_cases hindex : index = other <;> simp [hindex, hsame]

/-- Statistics are all that is attached. -/
theorem unannotated_attach (s : Specification) (step slot : Nat) (stats : ModeStats) :
    (s.attach step slot stats).unannotated = s.unannotated := by
  have hslots : (s.slots.modify step (·.modify slot fun found =>
      { found with stats := some stats })).map (·.map fun found => { found with stats := none }) =
        s.slots.map (·.map fun found => { found with stats := none }) := by
    apply map_modify_same
    intro found
    apply map_modify_same
    exact fun _ => rfl
  exact congrArg (fun slots => ({ s with slots := slots } : Specification)) hslots

/-- Statistics are attached to the slot, if there is one. -/
theorem stats?_attach (s : Specification) (step slot : Nat) (stats : ModeStats)
    (other index : Nat) :
    (s.attach step slot stats).stats? other index =
      if (other = step ∧ index = slot) ∧ (s.slot? other index).isSome then some stats
      else s.stats? other index := by
  by_cases hsame : other = step ∧ index = slot
  · obtain ⟨rfl, rfl⟩ := hsame
    simp only [stats?, slot?, attach, List.getElem?_modify, true_and]
    cases s.slots[other]? with
    | none => rfl
    | some found => cases hfound : found[index]? <;> simp [hfound]
  · rw [stats?, slot?_attach_other s stats hsame, if_neg fun hboth => hsame hboth.1]
    rfl

variable {f : Function} {s : Specification} {issues : List Driver.Issue}

/-- The specification is annotated if the slot went to the invoker and there are statistics. -/
theorem annotated_cases (f : Function) (s : Specification) (issue : Driver.Issue) :
    (issue.dispatch = none ∨ Driver.modeStats f issue.number = none) ∧ s.annotated f issue = s ∨
    ∃ dispatch stats, issue.dispatch = some dispatch ∧
      Driver.modeStats f issue.number = some stats ∧
      s.annotated f issue = s.attach issue.step issue.slot stats := by
  unfold annotated
  cases issue.dispatch with
  | none => exact .inl ⟨.inl rfl, rfl⟩
  | some dispatch =>
    cases Driver.modeStats f issue.number with
    | none => exact .inl ⟨.inr rfl, rfl⟩
    | some stats => exact .inr ⟨dispatch, stats, rfl, rfl, rfl⟩

theorem unannotated_foldl (f : Function) (s : Specification) (issues : List Driver.Issue) :
    (issues.foldl (annotated f) s).unannotated = s.unannotated := by
  induction issues generalizing s with
  | nil => rfl
  | cons issue issues ih =>
    rw [List.foldl_cons, ih]
    rcases annotated_cases f s issue with ⟨-, hsame⟩ | ⟨_, stats, -, -, hattached⟩
    · rw [hsame]
    · rw [hattached, unannotated_attach]

theorem isSome_slot?_annotated (f : Function) (s : Specification) (issue : Driver.Issue)
    (step slot : Nat) :
    ((s.annotated f issue).slot? step slot).isSome = (s.slot? step slot).isSome := by
  rcases annotated_cases f s issue with ⟨-, hsame⟩ | ⟨_, stats, -, -, hattached⟩
  · rw [hsame]
  · rw [hattached, isSome_slot?_attach]

/-- Where the statistics have changed the slot went to the invoker, and they are its own. -/
theorem stats?_foldl (f : Function) (s : Specification) (issues : List Driver.Issue)
    (step slot : Nat) :
    (issues.foldl (annotated f) s).stats? step slot = s.stats? step slot ∨
    ∃ issue ∈ issues, ∃ dispatch stats, issue.step = step ∧ issue.slot = slot ∧
      issue.dispatch = some dispatch ∧ Driver.modeStats f issue.number = some stats ∧
      (issues.foldl (annotated f) s).stats? step slot = some stats := by
  induction issues generalizing s with
  | nil => exact .inl rfl
  | cons issue issues ih =>
    rw [List.foldl_cons]
    rcases ih (s.annotated f issue) with hsame | ⟨other, hmem, hother⟩
    · rw [hsame]
      rcases annotated_cases f s issue with
        ⟨-, hkept⟩ | ⟨dispatch, stats, hdispatch, hstats, hattached⟩
      · exact .inl (congrArg (stats? · step slot) hkept)
      · rw [hattached, stats?_attach]
        split
        · rename_i hhere
          exact .inr ⟨issue, List.mem_cons_self, dispatch, stats, hhere.1.1.symm, hhere.1.2.symm,
            hdispatch, hstats, rfl⟩
        · exact .inl rfl
    · exact .inr ⟨other, List.mem_cons_of_mem _ hmem, hother⟩

/-- A slot that is not issued keeps its statistics. -/
theorem stats?_foldl_of_unissued {step slot : Nat}
    (hnone : ∀ issue ∈ issues, ¬(issue.step = step ∧ issue.slot = slot)) :
    (issues.foldl (annotated f) s).stats? step slot = s.stats? step slot := by
  rcases stats?_foldl f s issues step slot with hsame | ⟨issue, hmem, _, _, hstep, hslot, -⟩
  · exact hsame
  · exact absurd ⟨hstep, hslot⟩ (hnone issue hmem)

/-- Among slots none of which is issued twice, one that goes to the invoker is left with the
statistics there are for it. -/
theorem stats?_foldl_of_mem (honce : (issues.map Driver.Issue.position).Nodup)
    {issue : Driver.Issue} (hmem : issue ∈ issues) {dispatch : Dispatch} {stats : ModeStats}
    (hdispatch : issue.dispatch = some dispatch)
    (hstats : Driver.modeStats f issue.number = some stats)
    (hslot : (s.slot? issue.step issue.slot).isSome) :
    (issues.foldl (annotated f) s).stats? issue.step issue.slot = some stats := by
  induction issues generalizing s with
  | nil => exact absurd hmem List.not_mem_nil
  | cons first issues ih =>
    rw [List.map_cons, List.nodup_cons] at honce
    rw [List.foldl_cons]
    rcases List.mem_cons.mp hmem with rfl | hrest
    · rw [stats?_foldl_of_unissued, annotated, hdispatch, hstats]
      · simp only [stats?_attach, hslot, and_self, if_true]
      · rintro other hother ⟨hstep, hslot⟩
        refine honce.1 (List.mem_map.mpr ⟨other, hother, ?_⟩)
        rw [Driver.Issue.position, hstep, hslot]
        rfl
    · exact ih honce.2 hrest (by rwa [isSome_slot?_annotated])

end Specification

/-- A function has statistics for an invocation if each of its tables has an entry for it. -/
theorem Driver.modeStats_eq_some {f : Function} {number : Nat} {stats : ModeStats} :
    modeStats f number = some stats ↔ 0 < number ∧
      f.iterationStats[number - 1]? = some stats.iterations ∧
      f.batchStats[number - 1]? = some stats.batchSize ∧
      f.deadlineStats[number - 1]? = some stats.deadline := by
  obtain ⟨iterations, batchSize, deadline⟩ := stats
  unfold modeStats
  cases f.iterationStats[number - 1]? <;> cases f.batchStats[number - 1]? <;>
    cases f.deadlineStats[number - 1]? <;> by_cases hnumber : number = 0 <;>
    simp [hnumber, Nat.pos_iff_ne_zero]

end TraceReplay
