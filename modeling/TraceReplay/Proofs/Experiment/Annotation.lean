import TraceReplay.Proofs.Experiment.Distinct
import TraceReplay.Proofs.Specification.Annotated

/-!
# Annotations of a run

The drivers of a replay take their specifications with them, and what each of them reports is
put back in the place of its function.  So after a run that succeeds every specification is the
one that was there before, but for the statistics of the slots its driver dispatched.
-/

namespace TraceReplay

namespace Replay

/-- A slot goes to the invoker only outside test mode, and only if there is one. -/
theorem fired_of_dispatch {plan : Driver.Plan} {phase : Phase}
    {requested : Option RuntimeSpecification} {step slot number : Nat}
    (hdispatch : (plan.dispatch phase requested step slot number).isSome) :
    plan.configuration.testMode = false ∧ requested.isSome := by
  unfold Driver.Plan.dispatch at hdispatch
  split at hdispatch
  · split at hdispatch
    · exact absurd hdispatch (by simp)
    · rename_i htest
      exact ⟨by simpa using htest, by simpa using hdispatch⟩
  · exact absurd hdispatch (by simp)
  · exact absurd hdispatch (by simp)

/-- A driver has reported what it was given, with the statistics of the slots its lane has
issued, none of them twice. -/
structure Annotates (rested : World) (lane : Nat) (start : Start) (r : Driver.Report) : Prop where
  index : r.index = start.plan.index
  specification : r.specification = (rested.view.issuesOf lane).foldl
    (Specification.annotated start.plan.function) start.specification
  once : ((rested.view.issuesOf lane).map Driver.Issue.position).Nodup
  fired : ∀ issue ∈ rested.view.issuesOf lane, issue.dispatch.isSome →
    start.plan.configuration.testMode = false ∧
      (start.specification.slot? issue.step issue.slot).isSome

theorem Ended.annotates {w last rested : World} {starts : List Start} {finish : Finish}
    (hended : Ended w starts last rested) (hfinish : finish ∈ last.finished) :
    ∃ place start r, starts[place]? = some start ∧ finish.lane = w.lanes.length + place ∧
      finish.result = .ok r ∧ Annotates rested (w.lanes.length + place) start r := by
  obtain ⟨place, start, hstart, hplace⟩ := hended.exists_start hfinish
  obtain ⟨r, hresult⟩ := hended.well finish hfinish
  have hbegin : (Driver.begin start.plan start.specification w.clock).specification =
      start.specification := by
    unfold Driver.begin
    split <;> rfl
  obtain ⟨lane, -, ⟨hserves, hannotates, hascends⟩, hmem⟩ := hended.hasTrack hstart hfinish hplace
    (P := fun t => t.Serves start.plan start.specification (w.lanes.length + place) ∧
      t.Upholds (Driver.annotating start.plan start.specification) ∧
      t.Upholds (Driver.ascending start.plan))
    ⟨⟨start.track_manned _ _, start.track_settled _ _⟩, start.track_upholds _ _ hbegin,
      start.track_upholds _ _ ⟨.nil, by simp⟩⟩
    fun horderly hall hstep => ⟨hall.1.step horderly hstep,
      hall.2.1.step hall.1.manned horderly hstep, hall.2.2.step hall.1.manned horderly hstep⟩
  obtain ⟨_, _, hsorted, -⟩ := hascends.last
  obtain ⟨counters, s, rfl, hannotated⟩ := hannotates.ended finish hmem r hresult
  refine ⟨place, start, _, hstart, hplace, hresult, rfl, hannotated,
    hsorted.imp fun hlt => hlt.ne, fun issue hissue hdispatch => ?_⟩
  obtain ⟨number, hnumber⟩ := List.getElem?_of_mem hissue
  have hsettled := congrArg Driver.Issue.dispatch (hserves.settled.issues number issue hnumber)
  rw [hsettled] at hdispatch
  exact fired_of_dispatch hdispatch

/-- A slot of a lane went to the invoker, and these are the statistics its function has for
it. -/
def World.Fires (w : World) (lane : Nat) (f : Function) (step slot : Nat) (stats : ModeStats) :
    Prop :=
  ∃ issue ∈ w.view.issuesOf lane, issue.step = step ∧ issue.slot = slot ∧
    issue.dispatch.isSome ∧ 0 < issue.number ∧
    f.iterationStats[issue.number - 1]? = some stats.iterations ∧
    f.batchStats[issue.number - 1]? = some stats.batchSize ∧
    f.deadlineStats[issue.number - 1]? = some stats.deadline

/-- Statistics have changed only at slots that went to the invoker. -/
theorem Annotates.fires {rested : World} {lane : Nat} {start : Start} {r : Driver.Report}
    (hannotates : Annotates rested lane start r) {step slot : Nat}
    (hchanged : r.specification.stats? step slot ≠ start.specification.stats? step slot) :
    ∃ stats, start.plan.configuration.testMode = false ∧
      rested.Fires lane start.plan.function step slot stats ∧
      r.specification.stats? step slot = some stats := by
  rw [hannotates.specification] at hchanged ⊢
  rcases Specification.stats?_foldl start.plan.function start.specification
    (rested.view.issuesOf lane) step slot with
    hsame | ⟨issue, hissue, dispatch, stats, hstep, hslot, hdispatch, hstats, hleft⟩
  · exact absurd hsame hchanged
  · have hfired : issue.dispatch.isSome := by rw [hdispatch]; rfl
    exact ⟨stats, (hannotates.fired issue hissue hfired).1,
      ⟨issue, hissue, hstep, hslot, hfired, Driver.modeStats_eq_some.mp hstats⟩, hleft⟩

/-- A slot that went to the invoker is left with the statistics its function has for it. -/
theorem Annotates.stats_eq {rested : World} {lane : Nat} {start : Start} {r : Driver.Report}
    (hannotates : Annotates rested lane start r) {step slot : Nat} {stats : ModeStats}
    (hfires : rested.Fires lane start.plan.function step slot stats) :
    r.specification.stats? step slot = some stats := by
  obtain ⟨issue, hissue, rfl, rfl, hfired, hstats⟩ := hfires
  obtain ⟨dispatch, hdispatch⟩ := Option.isSome_iff_exists.mp hfired
  rw [hannotates.specification]
  exact Specification.stats?_foldl_of_mem hannotates.once hissue hdispatch
    (Driver.modeStats_eq_some.mpr hstats) (hannotates.fired issue hissue hfired).2

end Replay

namespace Experiment

open Replay (Ended Start Unmanned World)
open Trial

variable {p q : Progress}

/-! ## Specifications that are put back -/

/-- The specifications with what a driver has reported, if it has. -/
def putBack (specifications : List Specification) (finish : Replay.Finish) : List Specification :=
  match finish.result with
  | .ok r => specifications.set r.index r.specification
  | .error _ => specifications

theorem length_putBack (specifications : List Specification) (finish : Replay.Finish) :
    (putBack specifications finish).length = specifications.length := by
  unfold putBack
  split
  · exact List.length_set
  · rfl

theorem length_foldl_putBack (finishes : List Replay.Finish) (specifications : List Specification) :
    (finishes.foldl putBack specifications).length = specifications.length := by
  induction finishes generalizing specifications with
  | nil => rfl
  | cons finish finishes ih => rw [List.foldl_cons, ih, length_putBack]

/-- A place that nobody reports is left alone. -/
theorem getElem?_putBack_other {finishes : List Replay.Finish} {index : Nat}
    (hother : ∀ finish ∈ finishes, ∀ r, finish.result = .ok r → r.index ≠ index)
    (specifications : List Specification) :
    (finishes.foldl putBack specifications)[index]? = specifications[index]? := by
  induction finishes generalizing specifications with
  | nil => rfl
  | cons finish finishes ih =>
    rw [List.foldl_cons, ih fun later hlater => hother later (List.mem_cons_of_mem _ hlater)]
    unfold putBack
    split
    · rename_i r hresult
      exact List.getElem?_set_ne (hother finish List.mem_cons_self r hresult)
    · rfl

/-- A place holds what is reported of it, if all that is reported of it is the same. -/
theorem getElem?_putBack {finishes : List Replay.Finish} {index : Nat}
    {specification : Specification} (hsame : ∀ finish ∈ finishes, ∀ r, finish.result = .ok r →
      r.index = index → r.specification = specification)
    (hsome : ∃ finish ∈ finishes, ∃ r, finish.result = .ok r ∧ r.index = index)
    {specifications : List Specification} (hindex : index < specifications.length) :
    (finishes.foldl putBack specifications)[index]? = some specification := by
  induction finishes generalizing specifications with
  | nil => simp at hsome
  | cons finish finishes ih =>
    rw [List.foldl_cons]
    by_cases hlater : ∃ finish ∈ finishes, ∃ r, finish.result = .ok r ∧ r.index = index
    · exact ih (fun later hmem => hsame later (List.mem_cons_of_mem _ hmem)) hlater
        (by rwa [length_putBack])
    · rw [getElem?_putBack_other fun later hmem r hresult heq =>
        hlater ⟨later, hmem, r, hresult, heq⟩]
      obtain ⟨first, hmem, r, hresult, rfl⟩ := hsome
      rcases List.mem_cons.mp hmem with rfl | hmem
      · rw [putBack, hresult]
        simp [hindex, hsame first List.mem_cons_self r hresult rfl]
      · exact absurd ⟨first, hmem, r, hresult, rfl⟩ hlater

/-- The specifications while drivers have some of them. -/
def lent (e : Experiment) : List Specification :=
  e.specifications.mapIdx fun index specification =>
    if (assignDrivers e.functions e.policy.grouping).any (·.index = index) then .empty
    else specification

theorem startDrivers_lends {drivers : Nat} (hgives : startDrivers.Gives p drivers q) :
    q.experiment.specifications = p.experiment.lent := by
  unfold startDrivers at hgives
  simp only [gives_bind, gives_experiment, gives_world, gives_setWorld, gives_setExperiment,
    gives_pure, and_assoc, exists_and_left, exists_eq_left] at hgives
  obtain ⟨-, _, _, rfl⟩ := hgives
  rfl

theorem openOutputs_gives {started : Clock} (hgives : openOutputs.Gives p started q) :
    q.experiment = p.experiment := by
  unfold openOutputs at hgives
  simp only [gives_bind, gives_announceStart, gives_experiment, gives_createOutputs, and_assoc,
    exists_and_left, exists_eq_left] at hgives
  obtain ⟨_, _, _, ⟨files, -, rfl⟩, hgives⟩ := hgives
  rw [gives_ite_bind] at hgives
  obtain ⟨_, opened, hopened, hclock⟩ := hgives
  simp only [gives_bind, gives_world, gives_pure, and_assoc, exists_and_left,
    exists_eq_left] at hclock
  obtain ⟨-, rfl⟩ := hclock
  split at hopened
  · obtain ⟨_, -, rfl⟩ := gives_createOutputs.mp hopened
    rfl
  · obtain ⟨-, rfl⟩ := gives_pure.mp hopened
    rfl

theorem launch_lends {launched : Clock × Nat} (hgives : launch.Gives p launched q) :
    q.experiment.specifications = p.experiment.lent := by
  rw [launch_eq] at hgives
  simp only [gives_bind, gives_pure] at hgives
  obtain ⟨started, opened, hopened, drivers, begun, hbegun, -, rfl⟩ := hgives
  rw [startDrivers_lends hbegun, openOutputs_gives hopened]

theorem settle_puts {r : Driver.Report} {u : Unit} (hgives : (settle r).Gives p u q) :
    q.experiment.specifications =
      p.experiment.specifications.set r.index r.specification := by
  unfold settle at hgives
  simp only at hgives
  split at hgives <;>
    simp only [gives_bind, gives_report, gives_experiment, gives_setExperiment, and_assoc,
      exists_and_left, exists_eq_left] at hgives
  · obtain ⟨_, rfl⟩ := hgives
    rfl
  · subst hgives
    rfl

/-- Drivers that have all ended well have put their specifications back. -/
theorem settleAll_puts {finishes : List Replay.Finish}
    (hgives : (settleAll finishes).Gives p none q) :
    q.experiment.specifications = finishes.foldl putBack p.experiment.specifications := by
  induction finishes generalizing p with
  | nil =>
    obtain ⟨-, rfl⟩ := gives_pure.mp hgives
    rfl
  | cons finish finishes ih =>
    rw [settleAll] at hgives
    split at hgives
    · rename_i r hresult
      rw [gives_bind] at hgives
      obtain ⟨_, mid, hsettle, hrest⟩ := hgives
      rw [ih hrest, settle_puts hsettle, List.foldl_cons, putBack, hresult]
    · obtain ⟨herror, -⟩ := gives_pure.mp hgives
      exact absurd herror (by simp)

theorem endSampling_keeps {started : Clock} {u : Unit}
    (hgives : (endSampling started).Gives p u q) :
    q.experiment.specifications = p.experiment.specifications := by
  unfold endSampling at hgives
  simp only [gives_bind, gives_experiment, and_assoc, exists_and_left, exists_eq_left] at hgives
  split at hgives
  · rw [(stopSampling_gives hgives).experiment]
  · obtain ⟨-, rfl⟩ := gives_pure.mp hgives
    rfl

theorem collectAll_keeps {total : Summary} {started : Clock} {u : Unit}
    (hgives : (collectAll total started).Gives p u q) :
    q.experiment.specifications = p.experiment.specifications := by
  simp only [collectAll_eq, gives_bind] at hgives
  obtain ⟨_, mid, hended, _, closed, hclosed, hdelivered⟩ := hgives
  have hlast : q = _ := (congrArg Prod.snd hdelivered).symm.trans (deliver_run closed)
  rw [hlast, ← endSampling_keeps hended]
  exact congrArg Experiment.specifications (close_gives hclosed).2.2

/-- In a replay that succeeds all drivers end well and put back what they were lent. -/
theorem replay_puts {summary : Summary} (hgives : replay.Gives p summary q)
    (hunmanned : Unmanned p.site.world.renewed) :
    ∃ last rested, Ended p.opened p.drivers last rested ∧
      q.site.world.issues = rested.issues ∧
      q.experiment.specifications = last.finished.reverse.foldl putBack p.experiment.lent := by
  rw [replay_eq, gives_bind] at hgives
  obtain ⟨launched, begun, hlaunch, hgives⟩ := hgives
  obtain ⟨rfl, hlaunched⟩ := launch_gives hlaunch
  have hpasses := World.run_passes (drivenOut p.drivers.length) p.begun.turns p.begun
  unfold conclude at hgives
  simp only [gives_bind, gives_world, gives_setWorld, and_assoc, exists_and_left,
    exists_eq_left, hlaunched.world] at hgives
  generalize p.begun.run (drivenOut p.drivers.length) p.begun.turns = last at hpasses hgives
  obtain ⟨_, outcome, settled, hsettled, hgives⟩ := hgives
  cases outcome with
  | some error =>
    simp only [gives_bind] at hgives
    obtain ⟨_, _, -, hthrow⟩ := hgives
    exact absurd hthrow gives_throw
  | none =>
    simp only at hgives
    split at hgives
    · simp only [gives_bind] at hgives
      obtain ⟨_, _, hthrow, -⟩ := hgives
      exact absurd hthrow gives_throw
    rename_i hended
    simp only [gives_bind, gives_report, gives_pure, exists_eq_left] at hgives
    obtain ⟨_, collected, hcollected, _, -, rfl⟩ := hgives
    obtain ⟨hwell, hkept⟩ := settleAll_gives hsettled
    obtain ⟨notices, hworld⟩ := hkept.world
    obtain ⟨rested, hrested⟩ := collectAll_gives hcollected
    obtain ⟨heard, hcollectedWorld⟩ := hrested.world
    refine ⟨last, rested, ⟨hunmanned.report _, rfl, hpasses, not_not.mp hended,
      fun finish hmem => hwell finish (List.mem_reverse.mpr hmem), notices,
      hworld ▸ hrested.rests⟩, ?_, ?_⟩
    · simp only [hcollectedWorld]
      rfl
    · have hlent := launch_lends hlaunch
      change collected.experiment.specifications = _
      rw [collectAll_keeps hcollected, settleAll_puts hsettled]
      exact congrArg (fun specifications => last.finished.reverse.foldl putBack specifications)
        hlent

/-! ## Whole runs -/

/-- Each driver is that of one function. -/
theorem getElem?_starts_eq {e : Experiment} {hasAdmission : Bool} {place : Nat} {start : Start}
    (hstart : (e.starts hasAdmission)[place]? = some start) :
    ((assignDrivers e.functions e.policy.grouping).map (·.index))[place]? =
        some start.plan.index ∧
      e.functions[start.plan.index]? = some start.plan.function ∧
      start.plan.configuration = e.configuration ∧
      start.specification = e.specifications.getD start.plan.index .empty := by
  rw [getElem?_starts, Option.bind_eq_some_iff] at hstart
  obtain ⟨assignment, hassignment, hstart⟩ := hstart
  obtain ⟨f, hf, rfl⟩ := Option.map_eq_some_iff.mp hstart
  exact ⟨by rw [List.getElem?_map, hassignment]; rfl, hf, rfl, rfl⟩

/-- No two drivers are those of the same function. -/
theorem place_eq {e : Experiment} {hasAdmission : Bool} {place place' : Nat} {start start' : Start}
    (hstart : (e.starts hasAdmission)[place]? = some start)
    (hstart' : (e.starts hasAdmission)[place']? = some start')
    (hindex : start.plan.index = start'.plan.index) : place = place' := by
  obtain ⟨hassigned, -⟩ := getElem?_starts_eq hstart
  obtain ⟨hassigned', -⟩ := getElem?_starts_eq hstart'
  have hnodup := (List.nodup_range' 1 Nat.one_pos).sublist
    (sublist_assignDrivers e.functions e.policy.grouping)
  refine (List.getElem?_inj (List.getElem?_eq_some_iff.mp hassigned).1 hnodup).mp ?_
  rw [hassigned, hassigned', hindex]

/-- A specification that no driver has is not lent. -/
theorem getElem?_lent {e : Experiment} {hasAdmission : Bool} {index : Nat}
    (hnone : ∀ (place : Nat) (start : Start), (e.starts hasAdmission)[place]? = some start →
      start.plan.index ≠ index) : e.lent[index]? = e.specifications[index]? := by
  have hunassigned :
      (assignDrivers e.functions e.policy.grouping).any (·.index = index) = false := by
    apply List.any_eq_false.mpr
    intro assignment hmem hindex
    obtain ⟨place, hplace⟩ := List.getElem?_of_mem hmem
    have hsome : (e.startOf? hasAdmission assignment).isSome := isSome_startOf? hmem
    obtain ⟨start, hstart⟩ := Option.isSome_iff_exists.mp hsome
    refine hnone place start ?_ ?_
    · rw [getElem?_starts, hplace]
      exact hstart
    · obtain ⟨f, -, rfl⟩ := Option.map_eq_some_iff.mp hstart
      exact of_decide_eq_true hindex
  rw [lent, List.getElem?_mapIdx, hunassigned]
  simp

/-- What is put back in the place of a function is what its one driver reports. -/
theorem specification_putBack {last rested : World} {place : Nat} {start : Start}
    {given : Specification} (hended : Ended p.opened p.drivers last rested)
    (hstart : p.drivers[place]? = some start)
    (hgiven : p.experiment.specifications[start.plan.index]? = some given) :
    ∃ r, (last.finished.reverse.foldl putBack p.experiment.lent)[start.plan.index]? =
        some r.specification ∧
      Replay.Annotates rested (p.opened.lanes.length + place) start r ∧
      start.specification = given := by
  obtain ⟨-, -, -, hlent⟩ := getElem?_starts_eq hstart
  obtain ⟨finish, hfinish, hlane⟩ := hended.exists_finish hstart
  -- All that is reported of the function is what its driver reports.
  have hreports {other : Replay.Finish} (hother : other ∈ last.finished) {r : Driver.Report}
      (hresult : other.result = .ok r) (hindex : r.index = start.plan.index) :
      Replay.Annotates rested (p.opened.lanes.length + place) start r := by
    obtain ⟨place', start', r', hstart', -, hresult', hannotated⟩ := hended.annotates hother
    obtain rfl := Except.ok.inj (hresult.symm.trans hresult')
    obtain rfl := place_eq hstart' hstart (hannotated.index.symm.trans hindex)
    obtain rfl := Option.some.inj (hstart.symm.trans hstart')
    exact hannotated
  obtain ⟨place', start', r, hstart', hlane', hresult, hannotated⟩ := hended.annotates hfinish
  obtain rfl : place' = place := by omega
  obtain rfl := Option.some.inj (hstart.symm.trans hstart')
  refine ⟨r, ?_, hannotated, ?_⟩
  · refine getElem?_putBack (fun other hother r' hresult' hindex => ?_)
      ⟨finish, List.mem_reverse.mpr hfinish, r, hresult, hannotated.index⟩ ?_
    · rw [(hreports (List.mem_reverse.mp hother) hresult' hindex).specification,
        hannotated.specification]
    · rw [lent, List.length_mapIdx]
      exact (List.getElem?_eq_some_iff.mp hgiven).1
  · rw [hlent, List.getD_eq_getElem?_getD, hgiven]
    rfl

/-- The specification of a function without a driver stays. -/
theorem specification_undriven {last rested : World} {index : Nat}
    (hended : Ended p.opened p.drivers last rested)
    (hnone : ∀ (place : Nat) (start : Start), p.drivers[place]? = some start →
      start.plan.index ≠ index) :
    (last.finished.reverse.foldl putBack p.experiment.lent)[index]? =
      p.experiment.specifications[index]? := by
  rw [getElem?_putBack_other, getElem?_lent hnone]
  intro finish hfinish r hresult hindex
  obtain ⟨place, start, r', hstart, -, hresult', hannotated⟩ :=
    hended.annotates (List.mem_reverse.mp hfinish)
  obtain rfl := Except.ok.inj (hresult.symm.trans hresult')
  exact hnone place start hstart (hannotated.index.symm.trans hindex)

/-- After a run that succeeds each specification is the one its replay began with, but for
statistics.  These have changed only at slots that went to the invoker, which are then left with
what the function has for them. -/
theorem run_annotates {e : Experiment} {site : Site} {generated : Bool} {summary : Summary}
    (hrun : e.run site false generated = (.ok summary, p))
    (hunmanned : Unmanned site.world.renewed) :
    p.experiment.specifications.length =
      (e.prepared site generated).experiment.specifications.length ∧
    ∀ index given,
      (e.prepared site generated).experiment.specifications[index]? = some given →
      ∃ left, p.experiment.specifications[index]? = some left ∧
        left.unannotated = given.unannotated ∧
        ∀ step slot,
          (left.stats? step slot ≠ given.stats? step slot → ∃ place start stats,
            (e.prepared site generated).drivers[place]? = some start ∧
            start.plan.index = index ∧
            (e.prepared site generated).experiment.functions[index]? = some start.plan.function ∧
            e.configuration.testMode = false ∧
            p.site.world.Fires (site.world.lanes.length + place) start.plan.function step slot
              stats ∧
            left.stats? step slot = some stats) ∧
          ∀ place start stats, (e.prepared site generated).drivers[place]? = some start →
            start.plan.index = index →
            p.site.world.Fires (site.world.lanes.length + place) start.plan.function step slot
              stats →
            left.stats? step slot = some stats := by
  obtain ⟨hprepare, hreplay⟩ := run_gives hrun
  obtain ⟨hkept, -⟩ := prepare_gives hprepare
  obtain ⟨notices, hworld⟩ := hkept.world
  have hconfiguration : (e.prepared site generated).experiment.configuration = e.configuration :=
    hkept.configuration
  generalize e.prepared site generated = begun at hreplay hworld hconfiguration ⊢
  have hrenewed : Unmanned begun.site.world.renewed := by
    rw [hworld]
    exact hunmanned.report notices
  obtain ⟨last, rested, hended, hissues, hputs⟩ := replay_puts hreplay hrenewed
  have hlength : begun.opened.lanes.length = site.world.lanes.length := by
    rw [length_lanes_opened, hworld]
    rfl
  have hissuesOf (lane : Nat) :
      p.site.world.view.issuesOf lane = rested.view.issuesOf lane := by
    rw [Replay.View.issuesOf, Replay.View.issuesOf, World.view, World.view, hissues]
  have hfires (place : Nat) (f : Function) (step slot : Nat) (stats : ModeStats) :
      p.site.world.Fires (site.world.lanes.length + place) f step slot stats ↔
        rested.Fires (site.world.lanes.length + place) f step slot stats := by
    rw [World.Fires, World.Fires, hissuesOf]
  refine ⟨?_, fun index given hgiven => ?_⟩
  · rw [hputs, length_foldl_putBack, lent, List.length_mapIdx]
  rw [hputs]
  by_cases hdriven : ∃ (place : Nat) (start : Start), begun.drivers[place]? = some start ∧
      start.plan.index = index
  · obtain ⟨place, start, hstart, rfl⟩ := hdriven
    obtain ⟨-, hfunction, hplan, -⟩ := getElem?_starts_eq hstart
    obtain ⟨r, hplace, hannotated, rfl⟩ := specification_putBack hended hstart hgiven
    rw [hlength] at hannotated
    refine ⟨r.specification, hplace, ?_, fun step slot => ⟨fun hchanged => ?_, ?_⟩⟩
    · rw [hannotated.specification, Specification.unannotated_foldl]
    · obtain ⟨stats, htest, hfired, hleft⟩ := hannotated.fires hchanged
      refine ⟨place, start, stats, hstart, rfl, hfunction, ?_, (hfires _ _ _ _ _).mpr hfired,
        hleft⟩
      rw [← hconfiguration, ← hplan]
      exact htest
    · intro other start' stats hother hindex hfired
      obtain rfl := place_eq hother hstart hindex
      obtain rfl := Option.some.inj (hstart.symm.trans hother)
      exact hannotated.stats_eq ((hfires _ _ _ _ _).mp hfired)
  · have hnone (place : Nat) (start : Start) (hstart : begun.drivers[place]? = some start) :
        start.plan.index ≠ index := fun hindex => hdriven ⟨place, start, hstart, hindex⟩
    exact ⟨given, (specification_undriven hended hnone).trans hgiven, rfl, fun step slot =>
      ⟨fun hchanged => absurd rfl hchanged,
        fun place start _ hstart hindex => absurd hindex (hnone place start hstart)⟩⟩

/-- The first slot of the function goes to the invoker, the second does not. -/
theorem run_annotates_alone : ∃ summary given left,
    alone.run {} false false = (.ok summary, (alone.run {} false false).2) ∧
    (alone.prepared {} false).experiment.specifications[0]? = some given ∧
    (alone.run {} false false).2.experiment.specifications[0]? = some left ∧
    left.unannotated = given.unannotated ∧
    given.stats? 0 0 = none ∧ left.stats? 0 0 = some ⟨10, 1, 5⟩ ∧ left.stats? 0 1 = none := by
  obtain ⟨summary, hrun⟩ := exists_of_isSome (alone.run {} false false) (by decide +kernel)
  have hbefore : (alone.prepared {} false).experiment.specifications[0]?.map
      (·.stats? 0 0) = some none := by decide +kernel
  have hafter : (alone.run {} false false).2.experiment.specifications[0]?.map
      (fun left => (left.stats? 0 0, left.stats? 0 1)) = some (some ⟨10, 1, 5⟩, none) := by
    decide +kernel
  obtain ⟨given, hgiven, hunset⟩ := Option.map_eq_some_iff.mp hbefore
  obtain ⟨left, hleft, hkept, -⟩ := (run_annotates hrun Replay.Unmanned.empty).2 0 given hgiven
  rw [hleft] at hafter
  obtain ⟨hfirst, hsecond⟩ := Prod.mk.inj (Option.some.inj hafter)
  exact ⟨summary, given, left, hrun, hgiven, hleft, hkept, hunset, hfirst, hsecond⟩

end Experiment
end TraceReplay
