import TraceReplay.Proofs.Experiment.Conservation

/-!
# Drivers do not interfere

What a driver of a run that succeeds issues, and when, is what its schedule and its policy
say.  So two such runs that drive the same function alike show the same of it, whatever
their invokers do and whatever other functions they drive; at steps of a minute one of them
may be stopped earlier, at the end of a step.
-/

namespace TraceReplay

open Replay (World Start Unmanned)
open Driver (Observation CutOf)

/-- What can be seen of the slots a lane has issued, their times counted from a start. -/
def Replay.World.observationsOf (w : World) (index start : Nat) : List Observation :=
  (w.view.issuesOf index).map (·.observed start)

/-- Two drivers that are to do the same, perhaps in different company. -/
structure Replay.Start.Alike (left right : Start) : Prop where
  function : right.plan.function = left.plan.function
  siblings : right.plan.siblings = left.plan.siblings
  policy : right.plan.policy = left.plan.policy
  configuration : right.plan.configuration = left.plan.configuration
  specification : right.specification = left.specification

namespace Experiment

/-- What a driver of a run that succeeds has issued in the end is what its schedule has, or
the first steps of it. -/
theorem observationsOf_run {e : Experiment} {site : Site} {generated : Bool} {summary : Summary}
    {p : Progress} (hrun : e.run site false generated = (.ok summary, p))
    (hunmanned : Unmanned site.world.renewed) {place : Nat} {start : Start}
    (hstart : (e.prepared site generated).drivers[place]? = some start) :
    ∃ count, p.site.world.observationsOf (site.world.lanes.length + place) site.world.clock.now =
        (start.schedule site.world.clock).observations start.specification count ∧
      (start.plan.configuration.granularity = .second →
        count = (start.schedule site.world.clock).steps) := by
  obtain ⟨last, rested, hsucceeded⟩ := succeeded_of_run hrun
  obtain ⟨count, hissued, hsecond⟩ := hsucceeded.issuesOf hunmanned hstart
  refine ⟨count, ?_, hsecond⟩
  rw [World.observationsOf, hissued]
  exact (start.schedule site.world.clock).map_observed_issues start.specification count

/-- What can be seen of alike drivers in as many steps is the same. -/
theorem observations_congr {left right : Start} (halike : left.Alike right) (now later : Clock)
    (count : Nat) :
    (right.schedule later).observations right.specification count =
      (left.schedule now).observations left.specification count := by
  have hplan : right.plan = { left.plan with index := right.plan.index } := by
    cases hright : right.plan
    simp only [← halike.function, ← halike.siblings, ← halike.policy, ← halike.configuration,
      hright]
  have hpromptly : (right.schedule later).promptly =
      { (left.schedule now).promptly with
        plan := { (left.schedule now).promptly.plan with index := right.plan.index } } := by
    simp only [Start.schedule, Driver.Schedule.promptly, ← hplan, halike.specification]
  rw [Driver.Schedule.observations_promptly, hpromptly, Driver.Schedule.observations_index,
    ← Driver.Schedule.observations_promptly, halike.specification]

/-- Two runs that succeed and drive a function alike show the same of its driver: the same
slots, at the same times since the start, under the same IDs, dispatched alike or not at
all.  At steps of a minute one of them may have been stopped earlier, at the end of a step. -/
theorem observationsOf_alike {e e' : Experiment} {site site' : Site} {generated generated' : Bool}
    {summary summary' : Summary} {p p' : Progress}
    (hrun : e.run site false generated = (.ok summary, p))
    (hrun' : e'.run site' false generated' = (.ok summary', p'))
    (hunmanned : Unmanned site.world.renewed) (hunmanned' : Unmanned site'.world.renewed)
    {place place' : Nat} {start start' : Start}
    (hstart : (e.prepared site generated).drivers[place]? = some start)
    (hstart' : (e'.prepared site' generated').drivers[place']? = some start')
    (halike : start.Alike start') :
    (start.plan.configuration.granularity = .second →
      p'.site.world.observationsOf (site'.world.lanes.length + place') site'.world.clock.now =
        p.site.world.observationsOf (site.world.lanes.length + place) site.world.clock.now) ∧
    (start.plan.configuration.granularity = .minute →
      CutOf
        (p'.site.world.observationsOf (site'.world.lanes.length + place') site'.world.clock.now)
        (p.site.world.observationsOf (site.world.lanes.length + place) site.world.clock.now) ∨
      CutOf
        (p.site.world.observationsOf (site.world.lanes.length + place) site.world.clock.now)
        (p'.site.world.observationsOf (site'.world.lanes.length + place')
          site'.world.clock.now)) := by
  obtain ⟨count, hseen, hall⟩ := observationsOf_run hrun hunmanned hstart
  obtain ⟨count', hseen', hall'⟩ := observationsOf_run hrun' hunmanned' hstart'
  rw [hseen, hseen', observations_congr halike site.world.clock]
  constructor
  · intro hsecond
    have hsteps : count' = (start'.schedule site'.world.clock).steps := by
      apply hall'
      rw [halike.configuration, hsecond]
    have hsame : (start'.schedule site'.world.clock).steps =
        (start.schedule site.world.clock).steps := by
      change start'.plan.configuration.traceDuration -
        (if start'.plan.configuration.withWarmup then 1 else 0) = _
      rw [halike.configuration]
      rfl
    rw [hsteps, hsame, hall hsecond]
  · intro _
    rcases Nat.le_total count' count with hle | hle
    · exact .inl (Driver.Schedule.observations_cutOf _ _ hle)
    · exact .inr (Driver.Schedule.observations_cutOf _ _ hle)

end Experiment

/-! ## One function in two experiments -/

deriving instance DecidableEq for PercentileStats, Function, Specification, Assignment

def Function.bert : Function := { Function.resnet with name := "bert-gpu-1" }

namespace Experiment

/-- The same function after another, with invocations that fail after their step. -/
def accompanied : Experiment :=
  { alone with
    functions := [.bert, .resnet]
    invoker := .scripted fun _ => { success := false, delay := 1500 } }

/-- What the driver of a function is started with that has no siblings but itself. -/
theorem drivers_of_prepared {e : Experiment} {summary : Summary} {p : Progress} (place : Nat)
    (f : Function) (specification : Specification)
    (hrun : e.run {} false false = (.ok summary, p))
    (hpolicy : e.policy = alone.policy) (hconfiguration : e.configuration = alone.configuration)
    (hassigned : (assignDrivers (e.prepared {} false).experiment.functions .gpuVariants)[place]? =
      some ⟨place, [f]⟩)
    (hf : (e.prepared {} false).experiment.functions[place]? = some f)
    (hspecification :
      (e.prepared {} false).experiment.specifications.getD place .empty = specification) :
    (e.prepared {} false).drivers[place]? = some {
      plan := {
        index := place, function := f, siblings := [f]
        policy := alone.policy, configuration := alone.configuration }
      context := {
        invoker := (e.prepared {} false).experiment.invoker
        promptFunctions := (e.prepared {} false).experiment.promptFunctions
        hasAdmission := (e.prepared {} false).site.world.link.isSome }
      specification := specification } := by
  have hquiet := (prepare_gives (run_gives hrun).1).1
  have hsamePolicy : (e.prepared {} false).experiment.policy = alone.policy :=
    hquiet.policy.trans hpolicy
  have hsameConfiguration : (e.prepared {} false).experiment.configuration =
      alone.configuration := hquiet.configuration.trans hconfiguration
  have hgrouping : alone.policy.grouping = .gpuVariants := rfl
  rw [Progress.drivers, getElem?_starts, hsamePolicy, hgrouping, hassigned, Option.bind_some,
    startOf?, hf, hsamePolicy, hsameConfiguration, hspecification]
  rfl

/-- The specification of both runs: two slots, half a second apart. -/
def halves : Specification where
  gaps := [[0, 500000]]
  perStepCount := [2]
  rawDuration := []
  slots := [[{ runtime := 10, memory := 64 }, { runtime := 10, memory := 64 }]]

theorem observationsOf_accompanied :
    (accompanied.run {} false false).2.site.world.observationsOf 1 0 =
      (alone.run {} false false).2.site.world.observationsOf 0 0 ∧
    ((alone.run {} false false).2.site.world.observationsOf 0 0).length = 2 := by
  obtain ⟨_, halone⟩ := exists_of_isSome (alone.run {} false false) (by decide +kernel)
  obtain ⟨_, haccompanied⟩ := exists_of_isSome (accompanied.run {} false false)
    (by decide +kernel)
  have hstart := drivers_of_prepared 0 .resnet halves halone rfl rfl (by decide +kernel)
    (by decide +kernel) (by decide +kernel)
  have hstart' := drivers_of_prepared 1 .resnet halves haccompanied rfl rfl (by decide +kernel)
    (by decide +kernel) (by decide +kernel)
  have hsame := observationsOf_alike halone haccompanied Unmanned.empty Unmanned.empty hstart
    hstart' ⟨rfl, rfl, rfl, rfl, rfl⟩
  exact ⟨hsame.1 rfl, by decide +kernel⟩

end Experiment
end TraceReplay
