import TraceReplay.Proofs.Invocation.Identity
import TraceReplay.Proofs.Replay.Conservation
import TraceReplay.Proofs.Replay.Failure
import TraceReplay.Proofs.Replay.Upheld

/-!
# Slots are issued once

Only drivers that were started in a replay issue slots in it, each of them its slots in
order.  So no slot is issued twice, and drivers of functions with different names issue slots
with different IDs.
-/

namespace TraceReplay.Replay

open Driver (Issue)

/-- What differs within each class differs if what is the same is of one class. -/
theorem nodup_map_of_classes {α β γ : Type} [DecidableEq γ] {f : α → β} (key : α → γ)
    {xs : List α} (hkey : ∀ x ∈ xs, ∀ y ∈ xs, f x = f y → key x = key y)
    (hclasses : ∀ k, ((xs.filter (key · = k)).map f).Nodup) : (xs.map f).Nodup := by
  induction xs with
  | nil => exact List.nodup_nil
  | cons x xs ih =>
    rw [List.map_cons, List.nodup_cons]
    constructor
    · intro hmem
      obtain ⟨y, hy, hsame⟩ := List.mem_map.mp hmem
      have hclass := hclasses (key x)
      rw [List.filter_cons_of_pos (by simp), List.map_cons, List.nodup_cons] at hclass
      refine hclass.1 (List.mem_map.mpr ⟨y, List.mem_filter.mpr ⟨hy, ?_⟩, hsame⟩)
      simpa using hkey y (by simp [hy]) x (by simp) hsame
    · refine ih (fun y hy z hz => hkey y (by simp [hy]) z (by simp [hz])) fun k => ?_
      exact (hclasses k).sublist (((List.sublist_cons_self x xs).filter _).map f)

/-- A lane issues its slots once, each under its own ID. -/
theorem Track.nodup_ids {plan : Driver.Plan} {given : Specification} {index : Nat} {t : Track}
    (hserves : t.Serves plan given index) (hascends : t.Upholds (Driver.ascending plan)) :
    (t.issues.map (·.invocationId)).Nodup := by
  obtain ⟨-, -, hsorted, -⟩ := hascends.last
  have hpositions : (t.issues.map Issue.position).Nodup := hsorted.imp fun hlt => hlt.ne
  refine List.Nodup.map_on ?_ (List.Nodup.of_map _ hpositions)
  intro issue hissue other hother hsame
  rw [hserves.settled.invocationId hissue, hserves.settled.invocationId hother] at hsame
  obtain ⟨-, -, hstep, hslot⟩ := invocationId_inj hsame
  refine List.inj_on_of_nodup_map hpositions hissue hother ?_
  rw [Issue.position, hstep, hslot]
  rfl

/-- What is found of one of several lanes is what that lane has issued. -/
theorem View.filter_issuedIn {v : View} {own : Finset Nat} {index : Nat} (hindex : index ∈ own) :
    ((v.issuedIn own).filter (·.1 = index)).map (·.2) = (v.issuesOf index).reverse := by
  rw [View.issuesOf, List.reverse_reverse, View.issuedIn, List.filter_filter,
    ← List.filterMap_eq_map, List.filterMap_filter]
  refine List.filterMap_congr fun entry _ => ?_
  by_cases hsame : entry.1 = index
  · simp [hsame, hindex]
  · simp [hsame]

theorem View.mem_issuesOf_of_issuedIn {v : View} {own : Finset Nat} {entry : Nat × Issue}
    (hentry : entry ∈ v.issuedIn own) : entry.1 ∈ own ∧ entry.2 ∈ v.issuesOf entry.1 := by
  have hindex := of_decide_eq_true (List.mem_filter.mp hentry).2
  have hmem : entry.2 ∈ ((v.issuedIn own).filter (·.1 = entry.1)).map (·.2) :=
    List.mem_map.mpr ⟨entry, List.mem_filter.mpr ⟨hentry, by simp⟩, rfl⟩
  rw [View.filter_issuedIn hindex] at hmem
  exact ⟨hindex, List.mem_reverse.mp hmem⟩

section Replays

variable {w w' : World} {starts : List Start} {place : Nat} {start : Start}

/-- Where nobody was driven only the drivers that were started issue slots. -/
theorem Unmanned.issues_prepends (hunmanned : Unmanned w) (hfresh : w.finished = [])
    (hpasses : (w.startAll starts).Passes w') :
    Prepends (·.1 ∈ w.newLanes starts) w.issues w'.issues := by
  have hbegun : (w.startAll starts).view.issues = w.issues := (World.startAll_notes w starts).2
  have hdrivers (index : Nat) (hold : index ∉ w.newLanes starts) :
      (w.startAll starts).view.drivers index = 0 := by
    rw [hunmanned.drivers_eq hfresh .refl, if_neg (by simpa using hold)]
  refine ((hunmanned.startAll starts).1.toSound.view_passes
    (P := fun v => (∀ index ∉ w.newLanes starts, v.drivers index = 0) ∧
      Prepends (·.1 ∈ w.newLanes starts) w.issues v.issues)
    ?_ ⟨hdrivers, by rw [hbegun]⟩ hpasses).2
  rintro v v' who - hstep ⟨hnone, hprepends⟩
  refine ⟨fun index hold => (View.drivers_step hstep index).trans (hnone index hold), ?_⟩
  cases hstep with
  | @drive _ index point s lane rest hstanding hlane =>
    have hnew : index ∈ w.newLanes starts := by
      by_contra hold
      have hnone := hnone index hold
      have hone : 0 < v.standing.countP fun x => x.2.driving?.map (·.1) = some index :=
        Multiset.countP_pos.mpr ⟨_, hstanding ▸ Multiset.mem_cons_self _ _, rfl⟩
      rw [View.drivers] at hnone
      omega
    refine hprepends.trans ⟨(Driver.turn lane.plan v.clock lane.counters point s).issue.toList.map
      (index, ·), ?_, ?_⟩
    · simp only [View.drive]
      cases (Driver.turn lane.plan v.clock lane.counters point s).move <;> rfl
    · intro entry hentry
      obtain ⟨issue, -, rfl⟩ := List.mem_map.mp hentry
      exact hnew
  | _ => exact hprepends

/-- What is new among the slots is what the new lanes have issued. -/
theorem Unmanned.issues_eq (hunmanned : Unmanned w) (hfresh : w.finished = [])
    (hpasses : (w.startAll starts).Passes w') :
    w'.issues = w'.view.issuedIn (w.newLanes starts) ++ w.issues := by
  obtain ⟨issued, hissued, hnew⟩ := hunmanned.issues_prepends hfresh hpasses
  have hold : w.issues.filter (·.1 ∈ w.newLanes starts) = [] := by
    apply List.filter_eq_nil_iff.mpr
    intro entry hentry hin
    have hvacant := (hunmanned.vacant entry.1
      (World.mem_newLanes.mp (of_decide_eq_true hin)).1).2
    have hmem : entry.2 ∈ w.view.issuesOf entry.1 :=
      List.mem_reverse.mpr (List.mem_filterMap.mpr ⟨entry, hentry, if_pos rfl⟩)
    exact absurd (hvacant ▸ hmem) List.not_mem_nil
  have hall : issued.filter (·.1 ∈ w.newLanes starts) = issued :=
    List.filter_eq_self.mpr fun entry hentry => decide_eq_true (hnew entry hentry)
  rw [View.issuedIn, World.view, hissued, List.filter_append, hold, hall, List.append_nil]

/-- A new lane is that of a driver that was started, which issues its slots in order. -/
theorem Unmanned.exists_start_of_mem (hunmanned : Unmanned w)
    (hpasses : (w.startAll starts).Passes w') {index : Nat} (hindex : index ∈ w.newLanes starts) :
    ∃ place start, index = w.lanes.length + place ∧ starts[place]? = some start ∧
      w'.HasTrack index fun t => t.Serves start.plan start.specification index ∧
        t.Upholds (Driver.ascending start.plan) := by
  obtain ⟨hle, hlt⟩ := World.mem_newLanes.mp hindex
  obtain ⟨place, rfl⟩ := Nat.exists_eq_add_of_le hle
  have hstart : starts[place]? = some starts[place] := List.getElem?_eq_getElem (by omega)
  exact ⟨place, _, rfl, hstart, hunmanned.toFounded.upholds hstart hpasses ⟨.nil, by simp⟩⟩

/-- The ID of a slot names the function of the driver that has issued it. -/
theorem Unmanned.invocationId_eq (hunmanned : Unmanned w)
    (hpasses : (w.startAll starts).Passes w') {entry : Nat × Issue}
    (hentry : entry ∈ w'.view.issuedIn (w.newLanes starts)) :
    ∃ place start, entry.1 = w.lanes.length + place ∧ starts[place]? = some start ∧
      entry.2.invocationId = invocationId start.plan.function.name
        start.plan.configuration.granularity entry.2.step entry.2.slot := by
  obtain ⟨hindex, hmem⟩ := View.mem_issuesOf_of_issuedIn hentry
  obtain ⟨place, start, hplace, hstart, lane, -, hserves, -⟩ :=
    hunmanned.exists_start_of_mem hpasses hindex
  exact ⟨place, start, hplace, hstart, hserves.settled.invocationId hmem⟩

/-- Drivers of functions with different names issue slots with different IDs, each of them
once. -/
theorem Unmanned.nodup_issuedIn (hunmanned : Unmanned w)
    (hnames : (starts.map (·.plan.function.name)).Nodup)
    (hpasses : (w.startAll starts).Passes w') :
    ((w'.view.issuedIn (w.newLanes starts)).map (·.2.invocationId)).Nodup := by
  apply nodup_map_of_classes Prod.fst
  · intro entry hentry other hother hsame
    obtain ⟨place, start, hindex, hstart, hcomposed⟩ := hunmanned.invocationId_eq hpasses hentry
    obtain ⟨place', start', hindex', hstart', hcomposed'⟩ :=
      hunmanned.invocationId_eq hpasses hother
    rw [hcomposed, hcomposed'] at hsame
    have hname : (starts.map (·.plan.function.name))[place]? =
        (starts.map (·.plan.function.name))[place']? := by
      rw [List.getElem?_map, List.getElem?_map, hstart, hstart']
      exact congrArg some (invocationId_inj hsame).1
    have hlt : place < (starts.map (·.plan.function.name)).length := by
      simpa using (List.getElem?_eq_some_iff.mp hstart).1
    rw [hindex, hindex', (List.getElem?_inj hlt hnames).mp hname]
  · intro index
    by_cases hindex : index ∈ w.newLanes starts
    · obtain ⟨_, _, -, -, lane, -, hserves, hascends⟩ :=
        hunmanned.exists_start_of_mem hpasses hindex
      have hnodup := List.nodup_reverse.mpr (Track.nodup_ids hserves hascends)
      rw [← List.map_reverse] at hnodup
      have hids := View.filter_issuedIn hindex ▸ hnodup
      rwa [List.map_map] at hids
    · have hnone : (w'.view.issuedIn (w.newLanes starts)).filter (·.1 = index) = [] := by
        apply List.filter_eq_nil_iff.mpr
        intro entry hentry hsame
        exact hindex (of_decide_eq_true hsame ▸ (View.mem_issuesOf_of_issuedIn hentry).1)
      rw [hnone]
      exact List.nodup_nil

end Replays
end TraceReplay.Replay
