import TraceReplay.Proofs.Config.Valid
import TraceReplay.Proofs.Experiment.Conservation
import TraceReplay.Proofs.Experiment.Provision
import TraceReplay.Proofs.Policy.Verdict
import TraceReplay.Proofs.Replay.Completeness
import TraceReplay.Proofs.Replay.Perfect

/-!
# Runs that succeed

A run with a valid configuration, the policy of its mode and functions that can be drawn for
cannot fail for a reason of its own: no driver fails and none is left waiting, there is a
rhythm to sample by, and the collector gets as many records as it is told to expect.
-/

namespace TraceReplay

namespace Experiment

open Replay (Ended World Start Unmanned)
open Trial

variable {p q : Progress}

/-! ## Parts that cannot fail -/

theorem startDrivers_succeeds (p : Progress) : startDrivers.Succeeds p := by
  unfold startDrivers Succeeds
  simp

theorem settle_succeeds (r : Driver.Report) (p : Progress) : (settle r).Succeeds p := by
  unfold settle Succeeds
  split <;> simp

/-- Where no driver has failed there is no error. -/
theorem Outcome.eq_none {finishes : List Replay.Finish} {outcome : Option ReplayError}
    (houtcome : Outcome finishes outcome) (hwell : ∀ finish ∈ finishes, ∃ r, finish.result = .ok r) :
    outcome = none := by
  cases outcome with
  | none => rfl
  | some error =>
    obtain ⟨finish, hfinish, herror⟩ := houtcome
    obtain ⟨r, hresult⟩ := hwell finish hfinish
    exact absurd (herror.symm.trans hresult) (by simp)

theorem settleAll_succeeds (finishes : List Replay.Finish) (p : Progress) :
    (settleAll finishes).Succeeds p := by
  induction finishes generalizing p with
  | nil => exact ⟨none, p, gives_pure.mpr ⟨rfl, rfl⟩⟩
  | cons finish finishes ih =>
    rw [settleAll]
    split
    · exact (settle_succeeds _ p).bind fun _ mid _ => ih mid
    · exact ⟨_, p, gives_pure.mpr ⟨rfl, rfl⟩⟩

theorem tell_succeeds (event : Collector.Event) (p : Progress) : (tell event).Succeeds p := by
  unfold tell Succeeds
  simp

theorem close_succeeds (summary : Summary) (p : Progress) : (close summary).Succeeds p := by
  unfold close
  refine (tell_succeeds _ p).bind fun _ first _ => ?_
  exact (tell_succeeds _ first).bind fun _ second _ => tell_succeeds _ second

/-- Samples are taken only where there is a rhythm to take them. -/
theorem endSampling_succeeds (hvalid : p.experiment.configuration.loader.Valid)
    (started : Clock) : (endSampling started).Succeeds p := by
  unfold endSampling Succeeds
  simp only [gives_bind, gives_experiment, and_assoc, exists_and_left, exists_eq_left]
  cases hsource : activeSource p.experiment with
  | none => simp
  | some source =>
    have henabled : p.experiment.configuration.loader.scrapingEnabled = true := by
      by_contra hdisabled
      simp [activeSource, hdisabled] at hsource
    exact stopSampling_succeeds (Nat.ne_of_gt (hvalid.period henabled)) source started

/-! ## Collections -/

/-- A collector that has as many records as it is told to expect has them all. -/
theorem closing_result {c : Collector} (hhears : c.announcementOpen = true) {summary : Summary}
    (hnone : c.expected = Collector.unknownTotal)
    (hrecords : (c.records.length : Int) = summary.issued)
    (hjobs : (c.jobs.length : Int) = summary.issued) :
    ∃ collection, (closing c summary).result = .ok collection := by
  obtain ⟨hsame, hsameJobs, hexpected⟩ := closing_same hhears summary
  unfold Collector.result
  simp only [hsame, hsameJobs, hexpected]
  by_cases hsome : 0 < summary.issued
  · rw [if_pos hsome, if_neg (by omega)]
    exact ⟨_, rfl⟩
  · rw [if_neg hsome, if_neg (by simp [hnone])]
    exact ⟨_, rfl⟩

theorem deliver_succeeds
    (hcomplete : ∃ collection, p.site.world.collector.result = .ok collection) :
    deliver.Succeeds p := by
  obtain ⟨collection, hresult⟩ := hcomplete
  unfold deliver Succeeds
  simp [hresult]

/-- Once reliable drivers have ended and nobody is ready any more, the collector gets as many
records as it is told to expect. -/
theorem collectAll_succeeds {w last : World} {starts : List Start} {notices : List Notice}
    (hattentive : Replay.Attentive w) (hnone : w.collector.expected = Collector.unknownTotal)
    (hended : Ended w starts last p.site.world) (hworld : p.site.world = last.report notices)
    (hreliable : ∀ start ∈ starts, start.Reliable) (hready : last.ready = [])
    (hvalid : p.experiment.configuration.loader.Valid) (started : Clock) :
    (collectAll (totals last) started).Succeeds p := by
  have hdriverless : Replay.Driverless p.site.world := by
    rw [hworld]
    exact (hended.unmanned.driverless_of_ended hended.fresh hended.passes hended.ended).report _
  obtain ⟨_, rested, hsampled⟩ := endSampling_succeeds hvalid started
  obtain ⟨hrests, -, -, hstill⟩ := endSampling_gives hsampled
  have hquiet : rested.site.world.ready = [] := by
    apply hstill hdriverless
    rw [hworld]
    exact hready
  have hended : Ended w starts last rested.site.world :=
    { hended with rests := ⟨notices, hworld ▸ hrests⟩ }
  obtain ⟨hrecords, hjobs⟩ := hended.collected hattentive hreliable hquiet
  have hissued := issued_totals hended
  rw [collectAll_eq]
  refine hsampled.bind_succeeds ((close_succeeds _ rested).bind fun _ closed hclosed => ?_)
  obtain ⟨⟨_, hclosedWorld⟩, -, -⟩ := close_gives hclosed
  apply deliver_succeeds
  rw [hclosedWorld]
  apply closing_result hended.sound.hears
  · exact hended.expected.trans hnone
  · rw [hrecords, hissued]
  · rw [hjobs, hissued]

/-! ## The whole replay -/

/-- Reliable drivers whose invocations are all answered are driven out when all of them have
ended, and nobody is ready then. -/
theorem drivenOut_ended {w : World} {starts : List Start} (hunmanned : Unmanned w)
    (hfresh : w.finished = []) (hreliable : ∀ start ∈ starts, start.Reliable)
    (hheard : ∀ place < starts.length,
      (w.startAll starts).runToEnd.Answered (w.lanes.length + place)) :
    let last := (w.startAll starts).run (drivenOut starts.length) (w.startAll starts).turns
    last.ready = [] ∧ last.finished.length = starts.length ∧
      ∀ finish ∈ last.finished, ∃ r, finish.result = .ok r := by
  intro last
  have hpasses : (w.startAll starts).Passes last := World.run_passes _ _ _
  have hwell : ∀ finish ∈ last.finished, ∃ r, finish.result = .ok r :=
    fun finish hfinish => hunmanned.reports hfresh hpasses hreliable hfinish
  have hnone : failed? last = none := by
    apply List.findSome?_eq_none_iff.mpr
    intro finish hfinish
    obtain ⟨r, hresult⟩ := hwell finish (List.mem_reverse.mp hfinish)
    rw [hresult]
  rcases hunmanned.run_stops starts (drivenOut starts.length) with ⟨hquiet, hout⟩ | hend
  · rw [drivenOut, Bool.or_eq_true, decide_eq_true_eq] at hout
    refine ⟨List.isEmpty_iff.mp hquiet, hout.resolve_left ?_, hwell⟩
    change ¬(failed? last).isSome = true
    simp [hnone]
  · have hsame : last = (w.startAll starts).runToEnd :=
      hpasses.eq_last (World.runToEnd_passes _) hend (hunmanned.runToEnd_ends starts)
    refine ⟨(World.empty_of_end hend).1, ?_, hwell⟩
    exact hunmanned.length_of_end hfresh hpasses hend (hsame ▸ hheard)

/-- The drivers of a replay are started where there is room for its outputs. -/
theorem launch_succeeds (hroom : p.experiment.HasRoom p.site.files) : launch.Succeeds p := by
  obtain ⟨created, hcreate, hsampled⟩ := hroom
  have hstart (files : Files) := startDrivers_succeeds { p with site := {
    files := files
    world := p.site.world.report (p.experiment.announcement p.site.world.link.isSome) } }
  unfold launch Succeeds
  simp only [gives_bind, gives_announceStart, gives_experiment, gives_createOutputs, and_assoc,
    exists_and_left, exists_eq_left]
  by_cases hsource : (activeSource p.experiment).isSome
  · obtain ⟨sampled, hsampled⟩ := hsampled hsource
    obtain ⟨drivers, begun, hbegun⟩ := hstart sampled
    simp only [hsource, if_true, gives_bind, gives_createOutputs]
    exact ⟨_, begun, ⟨⟩, ⟨⟩, _, ⟨created, hcreate, rfl⟩, ⟨⟩, _, ⟨sampled, hsampled, rfl⟩, _, _,
      gives_world.mpr ⟨rfl, rfl⟩, drivers, begun, hbegun, gives_pure.mpr ⟨rfl, rfl⟩⟩
  · obtain ⟨drivers, begun, hbegun⟩ := hstart created
    simp only [hsource, Bool.false_eq_true, if_false, gives_bind]
    exact ⟨_, begun, ⟨⟩, ⟨⟩, _, ⟨created, hcreate, rfl⟩, _, _, gives_world.mpr ⟨rfl, rfl⟩, drivers,
      begun, hbegun, gives_pure.mpr ⟨rfl, rfl⟩⟩

/-- Reliable drivers whose invocations are all answered are driven out, and settled. -/
theorem conclude_succeeds {w : World} {starts : List Start} (hattentive : Replay.Attentive w)
    (hnone : w.collector.expected = Collector.unknownTotal) (hfresh : w.finished = [])
    (hreliable : ∀ start ∈ starts, start.Reliable)
    (hheard : ∀ place < starts.length,
      (w.startAll starts).runToEnd.Answered (w.lanes.length + place))
    (hworld : p.site.world = w.startAll starts)
    (hvalid : p.experiment.configuration.loader.Valid) (started : Clock) :
    (conclude started starts.length).Succeeds p := by
  obtain ⟨hready, hended, hwell⟩ :=
    drivenOut_ended hattentive.toUnmanned hfresh hreliable hheard
  have hpasses := World.run_passes (drivenOut starts.length) (w.startAll starts).turns
    (w.startAll starts)
  unfold conclude
  refine (gives_world.mpr ⟨rfl, rfl⟩).bind_succeeds ?_
  refine ((gives_setWorld (u := ⟨⟩)).mpr rfl).bind_succeeds ?_
  rw [hworld]
  generalize (w.startAll starts).run (drivenOut starts.length) (w.startAll starts).turns = last
    at hready hended hwell hpasses ⊢
  obtain ⟨outcome, settled, hsettled⟩ :=
    settleAll_succeeds last.finished.reverse { p with site := { p.site with world := last } }
  obtain ⟨houtcome, hkept⟩ := settleAll_gives hsettled
  obtain ⟨notices, hsettledWorld⟩ := hkept.world
  obtain rfl := houtcome.eq_none fun finish hfinish => hwell finish (List.mem_reverse.mp hfinish)
  refine hsettled.bind_succeeds ?_
  simp only [hended, ne_eq, not_true_eq_false, if_false]
  have hrested : Ended w starts last settled.site.world :=
    ⟨hattentive.toUnmanned, hfresh, hpasses, hended, hwell, notices, .inl hsettledWorld⟩
  have hcollected : (collectAll (totals last) started).Succeeds settled :=
    collectAll_succeeds hattentive hnone hrested hsettledWorld hreliable hready
      (hkept.configuration ▸ hvalid) started
  exact hcollected.bind fun _ collected _ => ((gives_report (u := ⟨⟩)).mpr rfl).bind_succeeds
    ⟨_, _, gives_pure.mpr ⟨rfl, rfl⟩⟩

/-- A replay succeeds whose drivers are reliable and whose invocations are all answered, if its
configuration is valid and there is room for its outputs. -/
theorem replay_succeeds (hvalid : p.experiment.configuration.loader.Valid)
    (hroom : p.experiment.HasRoom p.site.files) (hunmanned : Unmanned p.site.world.renewed)
    (hreliable : ∀ start ∈ p.drivers, start.Reliable)
    (hheard : ∀ place < p.drivers.length,
      p.begun.runToEnd.Answered (p.site.world.lanes.length + place)) : replay.Succeeds p := by
  obtain ⟨launched, begun, hlaunch⟩ := launch_succeeds hroom
  obtain ⟨rfl, hlaunched⟩ := launch_gives hlaunch
  obtain ⟨specifications, hexperiment⟩ := hlaunched.experiment
  rw [replay_eq]
  refine hlaunch.bind_succeeds ?_
  apply conclude_succeeds (hunmanned.attentive_renewed.report _) rfl rfl hreliable
  · intro place hplace
    rw [World.report, World.renewed, List.length_map]
    exact hheard place hplace
  · exact hlaunched.world
  · rw [hexperiment]
    exact hvalid

/-! ## Whole runs -/

/-- The drivers of a prepared run are reliable if its configuration is valid, its policy is that
of its training mode and its invoker does not panic. -/
theorem reliable_drivers (hfitted : p.experiment.Fitted)
    (hvalid : p.experiment.configuration.loader.Valid)
    (hpolicy : p.experiment.policy =
      (Policy.ofConfiguration p.experiment.configuration.loader).2)
    (hreturns : p.experiment.invoker.EndsIn (· ≠ .panics)) :
    ∀ start ∈ p.drivers, start.Reliable := by
  intro start hstart
  have hfits := hfitted.validate hstart
  obtain ⟨assignment, -, hassigned⟩ := List.mem_filterMap.mp hstart
  obtain ⟨f, -, rfl⟩ := Option.map_eq_some_iff.mp hassigned
  refine ⟨hfits, fun issued message => ?_, hreturns⟩
  rw [hpolicy]
  exact Policy.ofConfiguration_decides hvalid

/-- No invocation of the run waits in vain for an answer of the scheduler. -/
def Heard (e : Experiment) (site : Site) : Prop :=
  ∀ place < (e.prepared site false).drivers.length,
    (e.prepared site false).begun.runToEnd.Answered (site.world.lanes.length + place)

/-- A run succeeds whose configuration is valid and whose policy is that of its training mode,
known or not, if its functions can be drawn for and run already, its invocations come back
without a panic, and the files it needs can be created. -/
theorem run_succeeds {e : Experiment} {site : Site} {needed : Files}
    (hvalid : e.configuration.loader.validate = .ok ())
    (hpolicy : e.policy = (Policy.ofConfiguration e.configuration.loader).2)
    (hdeployer : e.deployer = .preDeployed) (hfunctions : ∀ f ∈ e.functions, f.Drawable)
    (hreturns : e.invoker.EndsIn (· ≠ .panics)) (hheard : e.Heard site)
    (hunmanned : Unmanned site.world.renewed)
    (hneeded : e.createNeeded site.files = .ok needed) :
    ∃ summary p, e.run site false false = (.ok summary, p) := by
  rw [Configuration.validate_ok_iff] at hvalid
  obtain ⟨q, hprepare, hinvoker, hroom⟩ := prepare_needed hdeployer hfunctions hneeded
  obtain ⟨hkept, hfitted⟩ := prepare_gives hprepare
  obtain ⟨notices, hworld⟩ := hkept.world
  have hprepared : e.prepared site false = q := congrArg Prod.snd hprepare
  have hlength : q.site.world.lanes.length = site.world.lanes.length := by rw [hworld]; rfl
  have hreliable : ∀ start ∈ q.drivers, start.Reliable := by
    apply reliable_drivers hfitted
    · rw [hkept.configuration]
      exact hvalid
    · rw [hkept.policy, hkept.configuration]
      exact hpolicy
    · rw [hinvoker]
      exact hreturns
  have hreplay : replay.Succeeds q := by
    apply replay_succeeds ?_ hroom ?_ hreliable
    · intro place hplace
      rw [hlength, ← hprepared]
      exact hheard place (hprepared ▸ hplace)
    · rw [hkept.configuration]
      exact hvalid
    · rw [hworld]
      exact hunmanned.report notices
  have htrial : (trial false false).Succeeds { experiment := e, site := site } := by
    rw [trial_eq]
    exact hprepare.bind_succeeds hreplay
  exact htrial

/-- Where nobody asks the scheduler nobody waits for its answer. -/
theorem heard_of_waits {e : Experiment} {site : Site} {q : Progress}
    (hprepare : (prepare false).Gives { experiment := e, site := site } () q)
    (hwaits : q.experiment.invoker.Waits) (hunmanned : Unmanned site.world.renewed) :
    e.Heard site := by
  obtain ⟨notices, hworld⟩ := (prepare_gives hprepare).1.world
  have hprepared : e.prepared site false = q := congrArg Prod.snd hprepare
  have hrenewed : Unmanned q.site.world.renewed := by
    rw [hworld]
    exact hunmanned.report notices
  have hlength : q.site.world.renewed.lanes.length = site.world.lanes.length := by
    rw [hworld]
    exact List.length_map _
  unfold Heard
  rw [hprepared, ← hlength]
  intro place hplace
  obtain ⟨assignment, -, hassigned⟩ := List.mem_filterMap.mp (List.getElem_mem hplace)
  obtain ⟨f, -, hstart⟩ := Option.map_eq_some_iff.mp hassigned
  apply (hrenewed.report _).toFounded.answered (World.runToEnd_passes _)
    (List.getElem?_eq_getElem hplace)
  rw [← hstart]
  exact hwaits

/-- Two functions under a mode that nobody knows, the second of them never asked for, with
samples of the cluster. -/
def unheardOf : Experiment where
  configuration := .ofLoader {
    clientTraining := "unheard-of", outputStem := "t", experimentDuration := 1
    granularity := .second, scrapingEnabled := true }
  functions := [.resnet, { name := "idle", invocationStats := [0] }]
  generator := .ofSeed 42
  invoker := .scripted fun _ => {}
  policy := .passThrough
  metricSource := some { usage := fun _ => (0, {}), platform := fun _ => (0, {}) }

theorem run_succeeds_unheardOf :
    TrainingMode.ofTag? unheardOf.configuration.loader.clientTraining = none ∧
      (activeSource unheardOf).isSome ∧ unheardOf.Heard {} ∧
      ∃ summary p, unheardOf.run {} false false = (.ok summary, p) := by
  have hunknown : TrainingMode.ofTag? unheardOf.configuration.loader.clientTraining = none := by
    decide +kernel
  have hpolicy : unheardOf.policy =
      (Policy.ofConfiguration unheardOf.configuration.loader).2 := by
    rw [Policy.ofConfiguration, hunknown]
    rfl
  have hvalid : unheardOf.configuration.loader.validate = .ok () := by
    rw [Configuration.validate_ok_iff, ← Configuration.fault?_eq_none_iff]
    decide +kernel
  have hfunctions : ∀ f ∈ unheardOf.functions, f.Drawable := by
    intro f hf
    rcases List.mem_pair.mp hf with rfl | rfl
    · exact .inr ⟨rfl, rfl⟩
    · exact .inl rfl
  have hreturns : unheardOf.invoker.EndsIn (· ≠ .panics) := fun _ _ => Ending.noConfusion
  obtain ⟨needed, hneeded⟩ :=
    exists_of_isOk (x := unheardOf.createNeeded ({} : Site).files) (by decide +kernel)
  have hunmanned : Unmanned (World.renewed {}) := Unmanned.empty
  have hheard : unheardOf.Heard {} := by
    obtain ⟨q, hprepare, hinvoker, -⟩ := prepare_needed rfl hfunctions hneeded
    refine heard_of_waits hprepare ?_ hunmanned
    rw [hinvoker]
    exact fun _ _ => ⟨_, rfl⟩
  refine ⟨hunknown, rfl, hheard, ?_⟩
  exact run_succeeds hvalid hpolicy rfl hfunctions hreturns hheard hunmanned hneeded

end Experiment
end TraceReplay
